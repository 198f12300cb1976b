import SymbolicBytecode.ClassFile.Reader
import SymbolicBytecode.Table

/-!
# Files

A fixed view of the files that a run can see. A path is followed step by step from the working
directory, or from the root if it begins with a slash. Every step starts from a directory: an empty
step and `.` stay there, and `..` leads back over the step before it. A file is kept under the plain
form of its path, which has none of these.
-/

namespace SymbolicBytecode

inductive FileError where
  | notFound
  | notDirectory
  | isDirectory
  | nameTooLong
  /-- There is a null character in the path. -/
  | nullInName
  /-- The bytes of a text file are not UTF-8. -/
  | notText
  deriving DecidableEq, Repr

def FileError.message : FileError → String
  | notFound => "No such file or directory (os error 2)"
  | notDirectory => "Not a directory (os error 20)"
  | isDirectory => "Is a directory (os error 21)"
  | nameTooLong => "File name too long (os error 36)"
  | nullInName => "file name contained an unexpected NUL byte"
  | notText => "stream did not contain valid UTF-8"

namespace Path

/-- How many bytes the name of a file may have. -/
def longestName : Nat := 255

/-- How many bytes a path may have. -/
def longestPath : Nat := 4095

def isFromRoot (path : String) : Bool := path.toList.head? = some '/'

/-- The path of `name` as seen from a directory. A path from the root stays what it is. -/
def join (directory name : String) : String :=
  if isFromRoot name ∨ directory = "" then name
  else if directory.toList.getLast? = some '/' then directory ++ name
  else directory ++ "/" ++ name

/-- The pieces of a text between the slashes. -/
def pieces : List Char → List (List Char)
  | [] => [[]]
  | c :: rest =>
    if c = '/' then [] :: pieces rest
    else
      match pieces rest with
      | [] => [[c]]
      | piece :: others => (c :: piece) :: others

def steps (path : String) : List String := (pieces path.toList).map String.ofList

/-- Take one more step from a place, which is given by the steps that lead to it, latest first.
There is nothing above the root. -/
def advance (fromRoot : Bool) (place : List String) (next : String) : List String :=
  if next = "" ∨ next = "." then place
  else if next = ".." then
    match place with
    | last :: before => if last = ".." then next :: place else before
    | [] => if fromRoot then [] else [next]
  else next :: place

/-- The places that some steps go through, in order, without the one that they lead to. -/
def passed (fromRoot : Bool) (place : List String) : List String → List (List String)
  | [] => []
  | next :: rest => place :: passed fromRoot (advance fromRoot place next) rest

/-- The path that leads straight to a place. -/
def straight (fromRoot : Bool) (place : List String) : String :=
  (if fromRoot then "/" else "") ++ "/".intercalate place.reverse

def plain (path : String) : String :=
  straight (isFromRoot path) ((steps path).foldl (advance (isFromRoot path)) [])

/-- The plain forms of the directories that a path goes through. -/
def ancestors (path : String) : List String :=
  (passed (isFromRoot path) [] (steps path)).map (straight (isFromRoot path))

end Path

structure Files where
  contents : Table Bytes
  directories : Table Unit

namespace Files

/-- The working directory alone. -/
def empty : Files := ⟨∅, Table.ofList [("", ())]⟩

instance : Inhabited Files := ⟨empty⟩

/-- Add a directory along with those that lead to it. -/
def addDirectory (files : Files) (path : String) : Files :=
  { files with
    directories := (Path.plain path :: Path.ancestors path).foldl
      (fun found directory => found.insert directory ()) files.directories }

/-- Add a file along with the directories that lead to it. -/
def add (files : Files) (path : String) (bytes : Bytes) : Files where
  contents := files.contents.insert (Path.plain path) bytes
  directories :=
    (Path.ancestors path).foldl (fun found directory => found.insert directory ()) files.directories

def ofList (entries : List (String × Bytes)) : Files :=
  entries.foldl (fun files entry => files.add entry.1 entry.2) empty

/-- The root, the working directory and the directories above it are always there. -/
def isDirectory (files : Files) (fromRoot : Bool) (place : List String) : Bool :=
  place.all (· = "..") || files.directories.contains (Path.straight fromRoot place)

/-- Why a place is no directory to start from. -/
def obstacle (files : Files) (fromRoot : Bool) (place : List String) : FileError :=
  if files.contents.contains (Path.straight fromRoot place) then .notDirectory else .notFound

/-- The place that some steps lead to. The last step may lead to nothing. -/
def follow (files : Files) (fromRoot : Bool) (place : List String) :
    List String → Except FileError (List String)
  | [] => .ok place
  | next :: rest =>
    if !files.isDirectory fromRoot place then .error (files.obstacle fromRoot place)
    else if next.utf8ByteSize > Path.longestName then .error .nameTooLong
    else files.follow fromRoot (Path.advance fromRoot place next) rest

/-- The place that a path leads to. -/
def locate (files : Files) (path : String) : Except FileError (List String) :=
  if '\x00' ∈ path.toList then .error .nullInName
  else if path = "" then .error .notFound
  else if path.utf8ByteSize > Path.longestPath then .error .nameTooLong
  else files.follow (Path.isFromRoot path) [] (Path.steps path)

def read (files : Files) (path : String) : Except FileError Bytes :=
  match files.locate path with
  | .error e => .error e
  | .ok place =>
    match files.contents.get? (Path.straight (Path.isFromRoot path) place) with
    | some bytes => .ok bytes
    | none =>
      if files.isDirectory (Path.isFromRoot path) place then .error .isDirectory
      else .error .notFound

/-- Read a file of UTF-8 text. -/
def readText (files : Files) (path : String) : Except FileError String := do
  let bytes ← files.read path
  match String.fromUTF8? ⟨bytes.toArray⟩ with
  | some text => return text
  | none => throw .notText

/-- The files below a place, each by the steps that lead to it from there. -/
def filesBelow (files : Files) (fromRoot : Bool) (place : List String) : List (List String) :=
  files.contents.keys.filterMap fun path =>
    let steps := (Path.steps path).filter (· ≠ "")
    if Path.isFromRoot path = fromRoot ∧ place.reverse.isPrefixOf steps then
      some (steps.drop place.length)
    else none

/-- The files below a directory, each by the steps that lead to it from there. -/
def below (files : Files) (directory : String) : Except FileError (List (List String)) :=
  match files.locate directory with
  | .error e => .error e
  | .ok place =>
    if files.isDirectory (Path.isFromRoot directory) place then
      .ok (files.filesBelow (Path.isFromRoot directory) place)
    else .error (files.obstacle (Path.isFromRoot directory) place)

/-- What is read is the contents of some file. -/
theorem read_mem_values {files : Files} {path : String} {bytes : Bytes}
    (h : files.read path = .ok bytes) : bytes ∈ files.contents.values := by
  unfold read at h
  split at h
  · cases h
  · split at h
    · next b hget =>
      cases h
      exact List.mem_map_of_mem ((Table.mem_entries_iff _ _ _).2 hget)
    · split at h <;> cases h

end Files

end SymbolicBytecode

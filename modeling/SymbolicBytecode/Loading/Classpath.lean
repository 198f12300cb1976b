import SymbolicBytecode.ClassFile.Outline
import SymbolicBytecode.Event

/-!
# Loading from a classpath

Classes are found in the directories of a classpath, a class `p/C` in the file `p/C.class` of the
first directory that has it. Loading a class loads its supertypes before it, so that a class that
gets into the hierarchy finds all of its supertypes there. A class that is its own supertype is
never loaded. Loading ends because every class on the way down has a file of its own.
-/

namespace SymbolicBytecode

structure Classpath where
  files : Files
  directories : List String

/-- The hierarchy that classes are loaded into, with the events so far, latest first. -/
structure LoadSession where
  hierarchy : Hierarchy
  events : List Event

abbrev Loading := ExceptT LoadError (StateM LoadSession)

namespace Loading

variable {α β : Type}

/-- Run an operation: what it came to, and the session after it. -/
def apply (x : Loading α) (σ : LoadSession) : Except LoadError α × LoadSession := x.run.run σ

def note (e : Event) : Loading Unit := modify fun σ => { σ with events := e :: σ.events }

def known? (name : String) : Loading (Option ClassFile) := do
  return (← get).hierarchy.get? name

def add (c : ClassFile) : Loading Unit :=
  modify fun σ => { σ with hierarchy := σ.hierarchy.add c }

@[simp] theorem apply_pure (a : α) (σ : LoadSession) : (pure a : Loading α).apply σ = (.ok a, σ) :=
  rfl

@[simp] theorem apply_throw (e : LoadError) (σ : LoadSession) :
    (throw e : Loading α).apply σ = (.error e, σ) := rfl

/-- A sequence of operations ends with the first that fails. -/
theorem apply_bind (x : Loading α) (f : α → Loading β) (σ : LoadSession) :
    (x >>= f).apply σ =
      match x.apply σ with
      | (.ok a, τ) => (f a).apply τ
      | (.error e, τ) => (.error e, τ) := by
  unfold apply
  rw [ExceptT.run_bind, StateT.run_bind]
  rcases x.run.run σ with ⟨_ | _, _⟩ <;> rfl

@[simp] theorem apply_note (e : Event) (σ : LoadSession) :
    (note e).apply σ = (.ok (), { σ with events := e :: σ.events }) := rfl

@[simp] theorem apply_known? (name : String) (σ : LoadSession) :
    (known? name).apply σ = (.ok (σ.hierarchy.get? name), σ) := rfl

@[simp] theorem apply_add (c : ClassFile) (σ : LoadSession) :
    (add c).apply σ = (.ok (), { σ with hierarchy := σ.hierarchy.add c }) := rfl

/-- The superclass of a class has to be a class. -/
def loadSuperclass (load : String → Loading ClassFile) (c : ClassFile) : Loading Unit :=
  match c.superName with
  | none => return
  | some superName => do
    let superclass ← load superName
    if superclass.isInterface then throw (.superclassIsInterface superName c.name)

/-- The superinterfaces of a class have to be interfaces. -/
def loadInterfaces (load : String → Loading ClassFile) (className : String) :
    List String → Loading Unit
  | [] => return
  | name :: rest => do
    let superinterface ← load name
    if superinterface.isInterface then loadInterfaces load className rest
    else throw (.superinterfaceIsClass name className)

end Loading

namespace Classpath

/-- Where the file of a class is looked for, in order. -/
def candidates (cp : Classpath) (name : String) : List String :=
  cp.directories.map fun directory => Path.join directory (name ++ ".class")

/-- The first of some files that can be read, or else why the last one cannot. -/
def firstReadable (files : Files) (reason : Option FileError) :
    List String → Except (Option FileError) (String × Bytes)
  | [] => .error reason
  | path :: rest =>
    match files.read path with
    | .ok bytes => .ok (path, bytes)
    | .error e => firstReadable files (some e) rest

/-- The file of a class. -/
def find (cp : Classpath) (name : String) : Except (Option FileError) (String × Bytes) :=
  firstReadable cp.files none (cp.candidates name)

/-- The class that a file defines, provided that it is the one asked for. -/
def define (name path : String) (bytes : Bytes) : Except LoadError ClassFile :=
  match ClassFile.parse bytes with
  | .error e => .error (.malformed name e)
  | .ok c =>
    if c.majorVersion > ClassOutline.currentMajorVersion then
      .error (.unsupportedVersion name c.majorVersion c.minorVersion)
    else if c.name ≠ name then .error (.otherClass name path)
    else .ok c

/-- Whether a file is that of a class outside of `pending`. -/
def definesOther (pending : List String) (bytes : Bytes) : Bool :=
  match ClassFile.parse bytes with
  | .ok c => c.name ∉ pending
  | .error _ => false

/-- The number of files left to load from while the `pending` classes are being loaded. -/
def remaining (cp : Classpath) (pending : List String) : Nat :=
  cp.files.contents.values.countP (definesOther pending)

theorem firstReadable_mem_values {files : Files} {paths : List String}
    {reason : Option FileError} {path : String} {bytes : Bytes}
    (h : firstReadable files reason paths = .ok (path, bytes)) :
    bytes ∈ files.contents.values := by
  induction paths generalizing reason with
  | nil => cases h
  | cons first rest ih =>
    unfold firstReadable at h
    split at h
    · next b hread => cases h; exact Files.read_mem_values hread
    · exact ih h

theorem parse_of_define {name path : String} {bytes : Bytes} {c : ClassFile}
    (h : define name path bytes = .ok c) : ClassFile.parse bytes = .ok c ∧ c.name = name := by
  unfold define at h
  split at h
  · cases h
  · next d hparse =>
    split at h
    · cases h
    · split at h
      · cases h
      · next hname => cases h; exact ⟨hparse, Decidable.not_not.1 hname⟩

/-- A predicate that holds less often, and fails at some member where the other one holds, has fewer
members. -/
theorem countP_lt_countP {α : Type} {p q : α → Bool} {l : List α} {a : α}
    (hle : ∀ x, p x = true → q x = true) (hmem : a ∈ l) (hp : ¬p a = true) (hq : q a = true) :
    l.countP p < l.countP q := by
  induction l with
  | nil => cases hmem
  | cons x rest ih =>
    rw [List.countP_cons, List.countP_cons]
    rcases List.mem_cons.1 hmem with rfl | hmem
    · have : rest.countP p ≤ rest.countP q := List.countP_mono_left fun y _ => hle y
      rw [if_neg hp, if_pos hq]
      omega
    · have := ih hmem
      by_cases hx : p x = true
      · rw [if_pos hx, if_pos (hle x hx)]
        omega
      · rw [if_neg hx]
        omega

/-- A class that is not pending takes up one of the remaining files. -/
theorem remaining_cons_lt {cp : Classpath} {pending : List String} {name path : String}
    {bytes : Bytes} {c : ClassFile} (hpending : name ∉ pending)
    (hfind : cp.find name = .ok (path, bytes)) (hdefine : define name path bytes = .ok c) :
    cp.remaining (name :: pending) < cp.remaining pending := by
  obtain ⟨hparse, hname⟩ := parse_of_define hdefine
  refine countP_lt_countP (a := bytes) ?_ (firstReadable_mem_values hfind) ?_ ?_
  · intro b hb
    unfold definesOther at hb ⊢
    split at hb <;> simp_all
  · simp [definesOther, hparse, hname]
  · simp [definesOther, hparse, hname, hpending]

/-- Load a class while the `pending` classes are being loaded. -/
def load (cp : Classpath) (pending : List String) (name : String) : Loading ClassFile := do
  match ← Loading.known? name with
  | some c => return c
  | none =>
    if _hpending : name ∈ pending then throw (.circularity name)
    else
      match _hfind : cp.find name with
      | .error reason => throw (.notFound name reason)
      | .ok (path, bytes) =>
        Loading.note (.loading name path)
        match _hdefine : define name path bytes with
        | .error e => throw e
        | .ok c =>
          Loading.loadSuperclass (fun n => cp.load (name :: pending) n) c
          Loading.loadInterfaces (fun n => cp.load (name :: pending) n) name c.interfaces
          Loading.note (.loaded name)
          Loading.add c
          return c
termination_by cp.remaining pending
decreasing_by all_goals exact remaining_cons_lt _hpending _hfind _hdefine

/-- Load classes one after the other and count those that could be loaded. -/
def loadEach (cp : Classpath) : List String → StateM LoadSession Nat
  | [] => return 0
  | name :: rest => do
    match ← (cp.load [] name).run with
    | .ok _ =>
      let count ← cp.loadEach rest
      return count + 1
    | .error e =>
      modify fun σ => { σ with events := .notLoaded e :: σ.events }
      cp.loadEach rest

/-- The name in front of the ending `.class`. If that is a dot, the dot of the ending belongs to the
name. -/
def stem? (fileName : String) : Option String :=
  let letters := fileName.toList.reverse
  if letters.take 6 ≠ ".class".toList.reverse ∨ letters.drop 6 = [] then none
  else if letters.drop 6 = ['.'] then some ".."
  else some (String.ofList (letters.drop 6).reverse)

/-- The class that a file is looked up for, given the steps that lead to it. -/
def className? (steps : List String) : Option String := do
  let stem ← stem? (← steps.getLast?)
  return "/".intercalate (steps.dropLast ++ [stem])

/-- The classes that some directories have files for. -/
def classNames (files : Files) : List String → StateM LoadSession (List String)
  | [] => return []
  | directory :: rest => do
    match files.below directory with
    | .ok paths =>
      let names ← classNames files rest
      return paths.filterMap className? ++ names
    | .error e =>
      modify fun σ => { σ with events := .notListed e :: σ.events }
      classNames files rest

/-- Load every class that the classpath has a file for, and count those that could be loaded. -/
def loadAll (cp : Classpath) : StateM LoadSession Nat := do
  let names ← classNames cp.files cp.directories
  cp.loadEach names

end Classpath

end SymbolicBytecode

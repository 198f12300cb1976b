import SymbolicBytecode.CommandLine.Run

/-!
# The program

Reads the files that a command can ask for, runs the command on them and prints what comes of it.
-/

namespace SymbolicBytecode.Program

open CommandLine

/-- Add what is at a path, if there is anything. -/
def fetch (files : Files) (path : String) : IO Files := do
  try
    let bytes ← IO.FS.readBinFile path
    return files.add path bytes.toList
  catch
    | .inappropriateType .. => return files.addDirectory path
    | _ => return files

/-- Add the files of some classes and of all their supertypes. -/
partial def fetchClasses (directories : List String) (files : Files) (done : List String) :
    List String → IO Files
  | [] => return files
  | name :: rest => do
    if done.contains name then fetchClasses directories files done rest
    else
      let cp : Classpath := ⟨files, directories⟩
      let files ← (cp.candidates name).foldlM fetch files
      let supertypes :=
        match ({ cp with files } : Classpath).find name with
        | .ok (_, bytes) =>
          match ClassFile.parse bytes with
          | .ok c => c.supertypes
          | .error _ => []
        | .error _ => []
      fetchClasses directories files (name :: done) (supertypes ++ rest)

/-- Add the files that a command reads. -/
def fetchFor (options : Options) (command : Command) : IO Files := do
  let files ← options.config.toList.foldlM fetch Files.empty
  match command with
  | .parse paths => paths.foldlM fetch files
  | .init className _ =>
    match options.configuration files with
    | .ok c => fetchClasses c.classpath files [] [className]
    | .error _ => return files

end SymbolicBytecode.Program

def main (args : List String) : IO UInt32 := do
  let files ←
    match SymbolicBytecode.CommandLine.Request.parse args with
    | .ok (.run options command) => SymbolicBytecode.Program.fetchFor options command
    | _ => pure SymbolicBytecode.Files.empty
  let outcome := SymbolicBytecode.CommandLine.run .ample files args
  (← IO.getStdout).putStr outcome.output
  (← IO.getStderr).putStr outcome.diagnostics
  return outcome.exitCode.toUInt32

import SymbolicBytecode.ClassFile.Dump
import SymbolicBytecode.CommandLine.Arguments
import SymbolicBytecode.Configuration.Basic
import SymbolicBytecode.Execution.Engine
import SymbolicBytecode.Hierarchy.Bootstrap
import SymbolicBytecode.Loading.Classpath

/-!
# Running the command line

What a command prints and how it ends, as a function of its arguments, the files it can see and the
host it runs on.
-/

namespace SymbolicBytecode.CommandLine

structure Outcome where
  exitCode : Nat
  output : String
  /-- The log lines and the error message. -/
  diagnostics : String
  deriving DecidableEq, Repr

/-- Some lines of text, each with the end of a line after it. -/
def unlines (lines : List String) : String := String.join (lines.map (· ++ "\n"))

def errorLine (message : String) : String := "error: " ++ message

/-- The log lines of some events, which are given latest first. -/
def logLines (threshold : Threshold) (events : List Event) : List String :=
  (events.reverse.filter fun e => threshold.admits e.severity).map Event.line

def versionText : String := "symjvm 0.1.0"

def usageText : String :=
  "usage: symjvm [-c FILE] [--classpath DIR]... parse FILE...\n" ++
    "       symjvm [-c FILE] [--classpath DIR]... init CLASS [--assume-initialized]"

/-- Show class files up to the first that cannot be read, given what has been printed before. -/
def showFiles (files : Files) (printed : String) : List String → Outcome
  | [] => ⟨0, printed, ""⟩
  | path :: rest =>
    match files.read path with
    | .error e => ⟨1, printed, unlines [errorLine e.message]⟩
    | .ok bytes =>
      match ClassFile.parse bytes with
      | .error e => ⟨1, printed, unlines [errorLine e.message]⟩
      | .ok c => showFiles files (printed ++ unlines [c.inspect.indented]) rest

def frameLine (f : Frame) : String := "  " ++ f.signature.text ++ " pc=" ++ toString f.pc

def uncaughtLine (s : State) (ref : Reference) : String :=
  let className :=
    match s.classOf ref with
    | .ok className => className
    | .error _ => ""
  "  terminated by uncaught " ++ className ++ " " ++ ref.text

def klassLines (entry : String × Klass) : List String :=
  ("  " ++ entry.1 ++ " " ++ entry.2.status.label) ::
    entry.2.fields.entries.map fun field => "    " ++ field.1 ++ " = " ++ field.2.text

/-- A state as it is shown after the initialization of a class. -/
def stateLines (s : State) : List String :=
  "thread stack (top first):" :: s.stack.map frameLine ++
    s.uncaught.toList.map (uncaughtLine s) ++
    "static store:" :: s.statics.entries.flatMap klassLines ++
    "path condition:" :: s.path.clauses.map fun clause => "  " ++ clause.text

/-- The method that initialization is started from, so that exceptions have somewhere to go. -/
def rootMethod : Signature := ⟨"symjvm/Driver", "run", "()V"⟩

/-- The code of the root method: nothing is done, then it returns. -/
def rootCode : Code := ⟨1, 0, [0x00, 0xb1], []⟩

def rootClass : ClassFile :=
  let outline := ClassOutline.publicClass rootMethod.className
  { outline with
    methods := [⟨0x0009, rootMethod.name, rootMethod.descriptor, some rootCode⟩] }.build

/-- Initialize a class from the root method. -/
def initializeFromRoot (engine : Engine) (hierarchy : Hierarchy) (className : String) :
    Except ExecutionError Bool × Session :=
  Exec.apply (do
      Exec.mapError .state (Exec.pushFrame rootMethod true 0 [])
      engine.ensureKlass className)
    (.start (.create hierarchy engine.heapLimit engine.host))

/-- Load a class, initialize it and show the state after that. -/
def initClass (host : Host) (files : Files) (c : Configuration) (className : String)
    (assumeInitialized : Bool) : Outcome :=
  let cp : Classpath := ⟨files, c.classpath⟩
  match (cp.load [] className).apply ⟨Hierarchy.bootstrap, []⟩ with
  | (.error e, loaded) =>
    ⟨1, "", unlines (logLines c.threshold loaded.events ++ [errorLine e.message])⟩
  | (.ok _, loaded) =>
    let engine : Engine := ⟨c.heapLimit, host, c.policy, .fixed assumeInitialized, .standard⟩
    let log (σ : Session) := logLines c.threshold (σ.events ++ loaded.events)
    match initializeFromRoot engine (loaded.hierarchy.add rootClass) className with
    | (.error e, σ) => ⟨1, "", unlines (log σ ++ [errorLine e.message])⟩
    | (.ok pushed, σ) =>
      ⟨0, unlines (("ensure_klass(" ++ className ++ ") = " ++ toString pushed) ::
        stateLines σ.state), unlines (log σ)⟩

/-- The configuration that the options ask for. -/
def Options.configuration (o : Options) (files : Files) :
    Except ConfigurationError Configuration := do
  let c ← match o.config with
    | some path => Configuration.read files path
    | none => pure Configuration.standard
  return { c with classpath := c.classpath ++ o.classpath }

def run (host : Host) (files : Files) (args : List String) : Outcome :=
  match Request.parse args with
  | .error e => ⟨2, "", unlines [errorLine e.message, usageText]⟩
  | .ok .version => ⟨0, unlines [versionText], ""⟩
  | .ok .help => ⟨0, unlines [usageText], ""⟩
  | .ok (.run options command) =>
    match options.configuration files with
    | .error e => ⟨1, "", unlines [errorLine e.message]⟩
    | .ok c =>
      match command with
      | .parse paths => showFiles files "" paths
      | .init className assumeInitialized => initClass host files c className assumeInitialized

end SymbolicBytecode.CommandLine

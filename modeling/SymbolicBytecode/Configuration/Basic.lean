import SymbolicBytecode.Execution.Initialization
import SymbolicBytecode.Files
import SymbolicBytecode.Yaml.Value

/-!
# Configuration

What can be set about a run, and how it is read from a YAML mapping. The mapping may leave any
setting out, but may name neither an unknown one nor one twice.
-/

namespace SymbolicBytecode

structure Configuration where
  /-- The events that are logged. -/
  threshold : Threshold
  /-- How many heap objects and static entries there may be. -/
  heapLimit : Option Nat
  policy : InitializationPolicy
  /-- The directories that classes are loaded from. -/
  classpath : List String
  deriving DecidableEq, Repr

inductive ConfigurationError where
  | unreadable (path : String) (e : FileError)
  | invalid
  deriving DecidableEq, Repr

def ConfigurationError.message : ConfigurationError → String
  | unreadable path e => "cannot read " ++ path ++ ": " ++ e.message
  | invalid => "invalid configuration"

/-- The name of a threshold; upper and lower case make no difference when it is read. -/
def Threshold.label : Threshold → String
  | none => "OFF"
  | some severity => severity.label

def Threshold.ofLabel? (label : String) : Option Threshold :=
  (none :: Severity.all.map some).find? fun t =>
    Threshold.label t = String.ofList (label.toList.map Char.toUpper)

namespace Configuration

def standard : Configuration := ⟨some .info, none, .standard, []⟩

/-- A heap limit has to fit into 64 bits. -/
def heapLimit? (node : Yaml.Node) : Option (Option Nat) := do
  if ← node.isNull? then return none
  else
    let n ← node.nat?
    if n < UInt64.size then return some n else none

/-- Change one setting, `none` if there is no such setting or it has no such value. -/
def set (c : Configuration) (d : Yaml.Document) (name : String) (node : Yaml.Node) :
    Option Configuration :=
  match name with
  | "log_level" => return { c with threshold := ← Threshold.ofLabel? (← node.choice?) }
  | "heap_limit" => return { c with heapLimit := ← heapLimit? node }
  | "force_enum_initializers" =>
    return { c with policy := { c.policy with forceEnums := ← node.bool? } }
  | "rollback_klasses_on_failure" =>
    return { c with policy := { c.policy with removeKlasses := ← node.bool? } }
  | "classpath" =>
    return { c with classpath := ← (← node.items?).mapM fun item => (d.follow item).text? }
  | _ => none

def ofDocument? (d : Yaml.Document) : Option Configuration := do
  let settings ← (← d.root.entries?).mapM fun (key, value) =>
    return (← (d.follow key).text?, d.follow value)
  if (settings.map Prod.fst).Nodup then
    settings.foldlM (fun c (name, value) => c.set d name value) standard
  else none

def parse (text : String) : Except ConfigurationError Configuration :=
  match (Yaml.parse? text).bind ofDocument? with
  | some c => .ok c
  | none => .error .invalid

def read (files : Files) (path : String) : Except ConfigurationError Configuration :=
  match files.readText path with
  | .ok text => parse text
  | .error e => .error (.unreadable path e)

end Configuration

end SymbolicBytecode

import SymbolicBytecode.State.Assumptions

/-!
# The static store

Creating the static entry of a class and changing it. An entry starts with the constants and
defaults of its fields; the entry of a class that is assumed to have been initialized before has an
unknown value in every field that is not constant.
-/

namespace SymbolicBytecode.Exec

/-- The value of a constant; a text becomes its string object. -/
def literalValue (pool : ConstantPool) (index : PoolIndex) : Exec Fault Value := do
  match ← (pool.literal index).mapError Fault.invalidIndex with
  | .int n => return .int n
  | .float x => return .float x
  | .long n => return .long n
  | .double x => return .double x
  | .string text => return .reference (.concrete (← internString text))

/-- An unknown value of a type. -/
def freshValue (type : FieldType) (origin : String) : Exec Fault Value := do
  match type.className? with
  | some className => return .reference (.symbolic (← newSymbolicRef origin className))
  | none => return .symbol (← newSymbol origin type)

/-- What a static field starts with. -/
def initialValue (c : ClassFile) (symbolic : Bool) (f : Field) (type : FieldType) :
    Exec Fault Value :=
  match f.constantValue with
  | some index => literalValue c.pool index
  | none =>
    if symbolic then freshValue type (c.name ++ "." ++ f.name) else return type.defaultValue

def initialValues (c : ClassFile) (symbolic : Bool) (found : Table Value) :
    List Field → Exec Fault (Table Value)
  | [] => return found
  | f :: rest => do
    let type ← (FieldType.parse f.descriptor).mapError Fault.descriptor
    let v ← initialValue c symbolic f type
    initialValues c symbolic (found.insert f.name v) rest

def insertKlass (className : String) (k : Klass) : Exec Fault Unit := do
  let s ← state
  setState { s with statics := s.statics.insert className k }

/-- Create the entry of a class that is not initialized yet, unless it has one. -/
def createKlass (className : String) : Exec Fault Unit := do
  let s ← state
  if s.hasKlass className then return ()
  else
    let c ← (s.hierarchy.find className).mapError Fault.link
    s.checkCapacity
    let fields ← initialValues c false ∅ c.staticFields
    note (.klassCreated className)
    insertKlass className ⟨.notInitialized, fields⟩

/-- Take the entry of a class out of the store. -/
def removeKlass (className : String) : Exec Fault (Option Klass) := do
  let s ← state
  setState { s with statics := s.statics.erase className }
  return s.statics.get? className

def setKlassStatus (className : String) (status : KlassStatus) : Exec Fault Unit := do
  let k ← (← state).findKlass className
  insertKlass className { k with status }

def setStatic (className field : String) (v : Value) : Exec Fault Unit := do
  let k ← (← state).findKlass className
  if k.fields.contains field then
    insertKlass className { k with fields := k.fields.insert field v }
  else throw (.noSuchField className field)

/-- Assume that one class was initialized before, unless it has an entry. -/
def assumeOneInitialized (c : ClassFile) : Exec Fault Unit := do
  let s ← state
  if s.hasKlass c.name then return ()
  else
    s.checkCapacity
    let fields ← initialValues c true ∅ c.staticFields
    assume (.initialized c.name)
    insertKlass c.name ⟨.initialized, fields⟩

def assumeAllInitialized : List ClassFile → Exec Fault Unit
  | [] => return ()
  | c :: rest => do
    assumeOneInitialized c
    assumeAllInitialized rest

/-- Assume that a class was initialized before the execution began, and with it its superclasses,
root first. -/
def assumeClassInitialized (className : String) : Exec Fault Unit := do
  let chain ← ((← state).hierarchy.superclassChain className).mapError Fault.link
  assumeAllInitialized chain.reverse

/-- Assume that a class is initialized during the execution, which is up to the caller. -/
def assumeClassNotInitialized (className : String) : Exec Fault Unit :=
  assume (.notInitialized className)

end SymbolicBytecode.Exec

import SymbolicBytecode.Hierarchy.Bootstrap
import SymbolicBytecode.Hierarchy.Chain
import SymbolicBytecode.Session
import SymbolicBytecode.Text.Utf16

/-!
# Objects

Making objects and changing them. New objects count against the heap limit, except for the
exceptions that the machine makes itself, so that it can always throw them. There is one string
object for each literal.
-/

namespace SymbolicBytecode.Exec

/-- Put an object into the heap and give its position. -/
def allocate (o : HeapObject) : Exec Fault Nat := do
  let s ← state
  setState { s with heap := s.heap.add o }
  return s.heap.size

def allocateWithinLimit (o : HeapObject) : Exec Fault Nat := do
  (← state).checkCapacity
  allocate o

/-- An object of a class with every field at its default. -/
def blankInstance (className : String) : Exec Fault HeapObject := do
  let fields ← ((← state).hierarchy.instanceFields className).mapError Fault.link
  return HeapObject.ofFields className fields

def createInstance (className : String) : Exec Fault Nat := do
  allocateWithinLimit (← blankInstance className)

/-- Like `createInstance`, but never short of memory. -/
def createThrowable (className : String) : Exec Fault Nat := do
  allocate (← blankInstance className)

def createArray (component : FieldType) (length : Int32) : Exec Fault Nat := do
  allocateWithinLimit (← HeapObject.newArray (← state).host component length)

/-- Change the object that a reference refers to. -/
def updateObject (ref : Reference) (f : HeapObject → Except Fault HeapObject) :
    Exec Fault Unit := do
  let s ← state
  let p ← s.objectPosition ref
  let o ← s.heap.find p
  let o ← f o
  setState { s with heap := s.heap.set p o }

def setField (ref : Reference) (field : String) (v : Value) : Exec Fault Unit :=
  updateObject ref (·.setField field v)

def setElement (ref : Reference) (index : Int32) (v : Value) : Exec Fault Unit :=
  updateObject ref (·.setElement index v)

/-- Store values in the elements from an index on. -/
def setElements (ref : Reference) (index : Nat) : List Value → Exec Fault Unit
  | [] => return ()
  | v :: rest => do
    setElement ref (Int32.ofNat index) v
    setElements ref (index + 1) rest

/-- Make a string object for a text. Its characters are the UTF-16 units of the text, whose number
becomes the length of an array. -/
def makeString (text : String) : Exec Fault Nat := do
  let units := Text.Utf16.encode text
  let chars ← createArray .char (Int32.ofNat units.length)
  setElements (.concrete chars) 0 (units.map fun u => .int u.toUInt32.toInt32)
  let p ← createInstance stringClass
  setField (.concrete p) "value" (.reference (.concrete chars))
  let s ← state
  setState { s with strings := s.strings.insert text p }
  return p

/-- The string object of a literal, made when it is first asked for. -/
def internString (text : String) : Exec Fault Nat := do
  let before ← state
  let answer ← attempt (match before.strings.get? text with
    | some p => return p
    | none => makeString text)
  record ⟨text, before, answer, ← state⟩
  answer

end SymbolicBytecode.Exec

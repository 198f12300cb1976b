import SymbolicBytecode.Fault

/-!
# The heap

Objects by position. Positions count up from zero and are never used again. An object is an instance
with named fields or an array, whose only field is its length. The machine that all of this runs on
may have no memory for an array.
-/

namespace SymbolicBytecode

/-- The machine underneath, as far as it can refuse memory. -/
structure Host where
  /-- Whether there is memory for an array of so many elements. -/
  holds : Nat → Bool

def Host.ample : Host := ⟨fun _ => true⟩

inductive HeapObject where
  | object (className : String) (fields : Table Value)
  | array (component : FieldType) (elements : Array Value)
  deriving DecidableEq

namespace HeapObject

/-- An instance with every field at the default of its type. -/
def ofFields (className : String) (fields : Table FieldType) : HeapObject :=
  .object className (fields.map FieldType.defaultValue)

/-- An array with every element at the default of the component type. -/
def newArray (host : Host) (component : FieldType) (length : Int32) : Except Fault HeapObject :=
  if length < 0 then .error (.negativeArraySize length)
  else if host.holds length.toInt.toNat then
    .ok (.array component (Array.replicate length.toInt.toNat component.defaultValue))
  else .error .heapMemoryExhausted

def className : HeapObject → String
  | .object className _ => className
  | .array component _ => (FieldType.array component).text

def getField (o : HeapObject) (field : String) : Except Fault Value :=
  match o with
  | .object className fields =>
    match fields.get? field with
    | some v => .ok v
    | none => .error (.noSuchField className field)
  | .array _ elements =>
    if field = "length" then .ok (.int elements.size.toInt32)
    else .error (.noSuchField o.className field)

/-- Store into an existing field. The length of an array never changes. -/
def setField (o : HeapObject) (field : String) (v : Value) : Except Fault HeapObject :=
  match o with
  | .object className fields =>
    if fields.contains field then .ok (.object className (fields.insert field v))
    else .error (.noSuchField className field)
  | .array .. => .error (.noSuchField o.className field)

/-- The place of an index in an array of the given length. -/
def checkIndex (length : Nat) (index : Int32) : Except Fault Nat :=
  if index < 0 ∨ length ≤ index.toInt.toNat then .error (.arrayIndexOutOfBounds index length)
  else .ok index.toInt.toNat

/-- An instance has no elements; the fault names the element like a field. -/
def notAnArray (className : String) (index : Int32) : Fault :=
  .noSuchField className ("[" ++ toString index.toInt ++ "]")

def getElement (o : HeapObject) (index : Int32) : Except Fault Value :=
  match o with
  | .object className _ => .error (notAnArray className index)
  | .array component elements => do
    let i ← checkIndex elements.size index
    return elements.getD i component.defaultValue

def setElement (o : HeapObject) (index : Int32) (v : Value) : Except Fault HeapObject :=
  match o with
  | .object className _ => .error (notAnArray className index)
  | .array component elements => do
    let i ← checkIndex elements.size index
    return .array component (elements.setIfInBounds i v)

end HeapObject

structure Heap where
  objects : Array HeapObject
  deriving DecidableEq

namespace Heap

def empty : Heap := ⟨#[]⟩

def size (h : Heap) : Nat := h.objects.size

/-- Put an object at the next position, which is the size of the heap. -/
def add (h : Heap) (o : HeapObject) : Heap := ⟨h.objects.push o⟩

def get? (h : Heap) (position : Nat) : Option HeapObject := h.objects[position]?

def find (h : Heap) (position : Nat) : Except Fault HeapObject :=
  match h.get? position with
  | some o => .ok o
  | none => .error (.invalidHeapPosition position)

def set (h : Heap) (position : Nat) (o : HeapObject) : Heap :=
  ⟨h.objects.setIfInBounds position o⟩

theorem get?_add (h : Heap) (o : HeapObject) (position : Nat) :
    (h.add o).get? position = if position = h.size then some o else h.get? position :=
  Array.getElem?_push

theorem size_add (h : Heap) (o : HeapObject) : (h.add o).size = h.size + 1 := by
  simp [add, size]

theorem size_set (h : Heap) (position : Nat) (o : HeapObject) :
    (h.set position o).size = h.size := by
  simp [set, size]

end Heap

end SymbolicBytecode

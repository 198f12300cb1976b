import SymbolicBytecode.Frame
import SymbolicBytecode.Heap
import SymbolicBytecode.PathCondition

/-!
# States

The state of one branch of a symbolic execution: the thread stack, the heap, the static fields of
the initialized classes, and the assumptions made so far. This module holds what can be read off a
state; the operations that change one are in the modules beside it.
-/

namespace SymbolicBytecode

inductive KlassStatus where
  | notInitialized
  /-- The frame of the class initialization method has been pushed and has not returned yet. -/
  | initializing
  | initialized
  deriving DecidableEq, Repr

def KlassStatus.label : KlassStatus → String
  | notInitialized => "NotInitialized"
  | initializing => "Initializing"
  | initialized => "Initialized"

/-- The static fields of a class, with its initialization status. -/
structure Klass where
  status : KlassStatus
  fields : Table Value
  deriving DecidableEq

/-- How the search for an exception handler ended. -/
inductive Unwinding where
  /-- A handler was found; its frame is now the current one. -/
  | caught (handlerPc : Nat)
  /-- No frame had a handler: the thread stack is empty and the thread has ended. -/
  | uncaught
  deriving DecidableEq, Repr

def Unwinding.inspect : Unwinding → Inspection
  | caught handlerPc => .record "Caught" [("handler_pc", .nat handlerPc)]
  | uncaught => .atom "Uncaught"

structure State where
  hierarchy : Hierarchy
  /-- The frames of the thread, current frame first. -/
  stack : List Frame
  heap : Heap
  statics : Table Klass
  path : PathCondition
  /-- The positions of the string objects made for literals. -/
  strings : Table Nat
  /-- How many heap objects and static entries there may be. The exceptions of the machine are not
  subject to it. -/
  heapLimit : Option Nat
  host : Host
  /-- How many symbols have been handed out; the next one gets the number after it. -/
  symbolCount : Nat
  /-- The exception that ended the thread. -/
  uncaught : Option Reference

namespace State

/-- An empty state over some classes. -/
def create (hierarchy : Hierarchy) (heapLimit : Option Nat) (host : Host) : State where
  hierarchy
  stack := []
  heap := Heap.empty
  statics := ∅
  path := PathCondition.empty
  strings := ∅
  heapLimit
  host
  symbolCount := 0
  uncaught := none

def currentFrame (s : State) : Except Fault Frame :=
  match s.stack with
  | f :: _ => .ok f
  | [] => .error .threadStackEmpty

/-- The objects and static entries that count towards the heap limit. -/
def occupied (s : State) : Nat := s.heap.size + s.statics.size

def isFull (s : State) : Bool :=
  match s.heapLimit with
  | some limit => limit ≤ s.occupied
  | none => false

def checkCapacity (s : State) : Except Fault Unit :=
  if s.isFull then .error .heapMemoryExhausted else .ok ()

/-- Whether a class has a static entry, in whatever status. -/
def hasKlass (s : State) (className : String) : Bool := s.statics.contains className

def findKlass (s : State) (className : String) : Except Fault Klass :=
  match s.statics.get? className with
  | some k => .ok k
  | none => .error (.klassNotFound className)

def getStatic (s : State) (className field : String) : Except Fault Value := do
  let k ← s.findKlass className
  match k.fields.get? field with
  | some v => return v
  | none => throw (.noSuchField className field)

/-- What a reference refers to, if that is known. -/
def resolve? (s : State) : Reference → Option Resolution
  | .concrete position => some (.position position)
  | .symbolic ref => s.path.resolution? ref.id

/-- The heap position that a reference refers to, if that is known and not `null`. -/
def positionOf? (s : State) (ref : Reference) : Option Nat :=
  match s.resolve? ref with
  | some (.position p) => some p
  | _ => none

/-- Whether two references are known to refer to the same object. -/
def aliases (s : State) (a b : Reference) : Bool :=
  match s.positionOf? a, s.positionOf? b with
  | some p, some q => p = q
  | _, _ => false

def objectPosition (s : State) (ref : Reference) : Except Fault Nat :=
  match s.resolve? ref with
  | some (.position p) => .ok p
  | some .null => .error .nullReference
  | none =>
    match ref with
    | .symbolic ref => .error (.unresolvedReference ref.id)
    | .concrete position => .error (.invalidHeapPosition position)

def object (s : State) (ref : Reference) : Except Fault HeapObject := do
  let p ← s.objectPosition ref
  s.heap.find p

def classOf (s : State) (ref : Reference) : Except Fault String := do
  let o ← s.object ref
  return o.className

def getField (s : State) (ref : Reference) (field : String) : Except Fault Value := do
  let o ← s.object ref
  o.getField field

def getElement (s : State) (ref : Reference) (index : Int32) : Except Fault Value := do
  let o ← s.object ref
  o.getElement index

/-- The frame of a class initialization method, if the class declares one. -/
def initializerFrame (s : State) (className : String) : Except Fault (Option Frame) := do
  let c ← (s.hierarchy.find className).mapError .link
  let signature := Signature.initializer className
  match c.method? signature.name signature.descriptor with
  | none => return none
  | some m =>
    if m.accessFlags.isStatic then return some (← Frame.create signature c m [])
    else throw (.link (.incompatible (.notStatic signature)))

end State

end SymbolicBytecode

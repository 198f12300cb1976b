import SymbolicBytecode.Decimal.Binary
import SymbolicBytecode.Descriptor.FieldType

/-!
# Values

A value is a concrete number, a reference, `null`, or a symbol that stands for an unknown
primitive. A symbolic reference stands for an unknown object until the path condition says what
it refers to.
-/

namespace SymbolicBytecode

structure SymbolicRef where
  id : Nat
  /-- Where the reference came from, for instance a static field. -/
  origin : String
  /-- The class that the reference is declared to have. -/
  staticType : String
  deriving DecidableEq, Repr

inductive Reference where
  | concrete (position : Nat)
  | symbolic (ref : SymbolicRef)
  deriving DecidableEq, Repr

structure Symbol where
  id : Nat
  type : FieldType
  origin : String
  deriving DecidableEq, Repr

inductive Value where
  | int (n : Int32)
  | float (x : Binary32)
  | long (n : Int64)
  | double (x : Binary64)
  | reference (ref : Reference)
  | null
  | symbol (s : Symbol)
  deriving DecidableEq, Repr

def positionText (position : Nat) : String := "@" ++ toString position

def SymbolicRef.text (r : SymbolicRef) : String := "\x7bR" ++ toString r.id ++ "\x7d"

def Reference.text : Reference → String
  | concrete position => positionText position
  | symbolic ref => ref.text

def Reference.inspect : Reference → Inspection
  | concrete position => .tuple "Concrete" [.tuple "HeapPosition" [.nat position]]
  | symbolic ref => .tuple "Symbolic" [.record "SymbolicRef" [("id", .nat ref.id),
      ("origin", .text ref.origin), ("static_type", .text ref.staticType)]]

def Symbol.text (s : Symbol) : String := "\x7bV" ++ toString s.id ++ "\x7d"

def Symbol.inspect (s : Symbol) : Inspection :=
  .record "Symbol" [("id", .nat s.id), ("ty", s.type.inspect), ("origin", .text s.origin)]

namespace Value

/-- Wide values take two local variable slots. -/
def isWide : Value → Bool
  | long _ | double _ => true
  | symbol s => s.type.isWide
  | _ => false

/-- The number of local variable slots that a value takes. -/
def slots (v : Value) : Nat := if v.isWide then 2 else 1

def asReference? : Value → Option Reference
  | reference ref => some ref
  | _ => none

def text : Value → String
  | int n => toString n.toInt
  | float x => x.text Decimal.plain ++ "f"
  | long n => toString n.toInt ++ "L"
  | double x => x.text Decimal.plain ++ "d"
  | reference ref => ref.text
  | null => "null"
  | symbol s => s.text

def inspect : Value → Inspection
  | int n => .tuple "Int" [.atom (toString n.toInt)]
  | float x => .tuple "Float" [.atom (x.text Decimal.marked)]
  | long n => .tuple "Long" [.atom (toString n.toInt)]
  | double x => .tuple "Double" [.atom (x.text Decimal.marked)]
  | reference ref => .tuple "Reference" [ref.inspect]
  | null => .atom "Null"
  | symbol s => .tuple "Symbol" [s.inspect]

end Value

/-- What a field of a type holds before anything is stored in it. -/
def FieldType.defaultValue : FieldType → Value
  | .byte | .char | .short | .int | .boolean => .int 0
  | .float => .float Binary32.zero
  | .long => .long 0
  | .double => .double Binary64.zero
  | .reference _ | .array _ => .null

end SymbolicBytecode

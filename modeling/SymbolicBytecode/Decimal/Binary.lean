import SymbolicBytecode.Decimal.Style

/-!
# Binary floating-point numbers

Numbers of the two floating-point types, held as their bit patterns. Nothing here computes with
them; they are read, stored and written.
-/

namespace SymbolicBytecode

structure Binary32 where
  bits : UInt32
  deriving DecidableEq, Repr

structure Binary64 where
  bits : UInt64
  deriving DecidableEq, Repr

namespace Binary32

def zero : Binary32 := ⟨0⟩

def datum (x : Binary32) : Decimal.Datum := Decimal.single.decode x.bits.toNat

def isNaN (x : Binary32) : Bool := x.datum = .nan

def text (style : Decimal.Style) (x : Binary32) : String := style.text x.datum

end Binary32

namespace Binary64

def zero : Binary64 := ⟨0⟩

def datum (x : Binary64) : Decimal.Datum := Decimal.double.decode x.bits.toNat

def isNaN (x : Binary64) : Bool := x.datum = .nan

def text (style : Decimal.Style) (x : Binary64) : String := style.text x.datum

end Binary64

end SymbolicBytecode

import SymbolicBytecode.Value

/-!
# Path conditions

The assumptions made on one branch of the execution, in the order they were made. Some of them say
what a symbolic reference refers to; if several speak of the same reference, the last one counts.
-/

namespace SymbolicBytecode

inductive Clause where
  /-- The class was initialized before the execution began. -/
  | initialized (className : String)
  | notInitialized (className : String)
  | isNull (id : Nat)
  /-- The symbolic reference refers to an object that was already in the heap. -/
  | aliases (id position : Nat)
  /-- The symbolic reference refers to an object made for it. -/
  | expands (id position : Nat) (className : String)
  deriving DecidableEq, Repr

inductive Resolution where
  | null
  | position (p : Nat)
  deriving DecidableEq, Repr

namespace Clause

def text : Clause → String
  | initialized className => "pre_init(" ++ className ++ ")"
  | notInitialized className => "!pre_init(" ++ className ++ ")"
  | isNull id => "\x7bR" ++ toString id ++ "\x7d == null"
  | aliases id position => "\x7bR" ++ toString id ++ "\x7d == " ++ positionText position
  | expands id position className =>
    "\x7bR" ++ toString id ++ "\x7d == " ++ positionText position ++ " fresh " ++ className

def resolves? : Clause → Option (Nat × Resolution)
  | isNull id => some (id, .null)
  | aliases id position => some (id, .position position)
  | expands id position _ => some (id, .position position)
  | _ => none

def initializes? (className : String) : Clause → Option Bool
  | initialized name => if name = className then some true else none
  | notInitialized name => if name = className then some false else none
  | _ => none

end Clause

structure PathCondition where
  clauses : List Clause
  deriving DecidableEq, Repr

namespace PathCondition

def empty : PathCondition := ⟨[]⟩

def push (p : PathCondition) (c : Clause) : PathCondition := ⟨p.clauses ++ [c]⟩

def resolution? (p : PathCondition) (id : Nat) : Option Resolution :=
  p.clauses.reverse.findSome? fun c =>
    match c.resolves? with
    | some (other, r) => if other = id then some r else none
    | none => none

/-- Whether a class is assumed to have been initialized before the execution began, `none` if
nothing is assumed about that. -/
def assumesInitialized? (p : PathCondition) (className : String) : Option Bool :=
  p.clauses.reverse.findSome? (·.initializes? className)

end PathCondition

end SymbolicBytecode

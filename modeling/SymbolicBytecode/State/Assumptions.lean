import SymbolicBytecode.State.Allocation

/-!
# Symbols and assumptions about them

Fresh symbols, and the three ways to settle what a symbolic reference refers to: nothing, an object
that exists already, or an object made for it. Each reference can be settled once.
-/

namespace SymbolicBytecode.Exec

/-- The number of a new symbol. -/
def freshId : Exec Fault Nat := do
  let s ← state
  setState { s with symbolCount := s.symbolCount + 1 }
  return s.symbolCount + 1

def newSymbolicRef (origin staticType : String) : Exec Fault SymbolicRef := do
  return ⟨← freshId, origin, staticType⟩

def newSymbol (origin : String) (type : FieldType) : Exec Fault Symbol := do
  return ⟨← freshId, type, origin⟩

def assume (c : Clause) : Exec Fault Unit := do
  let s ← state
  setState { s with path := s.path.push c }

def checkUnresolved (ref : SymbolicRef) : Exec Fault Unit := do
  match (← state).path.resolution? ref.id with
  | some _ => throw (.alreadyResolved ref.id)
  | none => return ()

/-- Settle that a symbolic reference is `null`. -/
def assumeNull (ref : SymbolicRef) : Exec Fault Unit := do
  checkUnresolved ref
  assume (.isNull ref.id)

/-- Settle that a symbolic reference refers to an object in the heap. -/
def assumeAliases (ref : SymbolicRef) (position : Nat) : Exec Fault Unit := do
  checkUnresolved ref
  let _ ← (← state).heap.find position
  assume (.aliases ref.id position)

/-- Settle that a symbolic reference refers to a new object of a class. -/
def assumeExpands (ref : SymbolicRef) (className : String) : Exec Fault Nat := do
  checkUnresolved ref
  let p ← createInstance className
  assume (.expands ref.id p className)
  return p

end SymbolicBytecode.Exec

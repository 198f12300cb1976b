import SymbolicBytecode.Execution.Error
import SymbolicBytecode.Session

/-!
# Decision oracles

An oracle decides whether a class was initialized before the execution began. It sees the
assumptions made so far and may remember what it was asked before, so its answer depends on all the
questions up to the present one, and it may also fail.
-/

namespace SymbolicBytecode

structure Oracle where
  /-- The answer to a question, given the earlier ones, latest first. -/
  answer : (earlier : List Query) → Query → Except DecisionError Bool

namespace Oracle

/-- The same answer for every class. -/
def fixed (value : Bool) : Oracle := ⟨fun _ _ => .ok value⟩

/-- Answers from a list, failures for some classes, and the default for all others. -/
def scripted (default : Bool) (answers : Table Bool) (failing : List String) : Oracle where
  answer _ q :=
    if q.className ∈ failing then .error ⟨"no answer for " ++ q.className⟩
    else .ok ((answers.get? q.className).getD default)

/-- What the assumptions say, and the default for classes that they do not mention. -/
def fromPath (default : Bool) : Oracle :=
  ⟨fun _ q => .ok ((q.path.assumesInitialized? q.className).getD default)⟩

end Oracle

/-- Ask whether a class was initialized before. -/
def Exec.ask (oracle : Oracle) (className : String) : Exec ExecutionError Bool := do
  let σ ← get
  let q : Query := ⟨className, σ.state.path⟩
  set { σ with queries := q :: σ.queries }
  (oracle.answer σ.queries q).mapError ExecutionError.decision

end SymbolicBytecode

import SymbolicBytecode.Execution.Invocation

/-!
# The engine

Executes instructions on states. The engine holds what stays the same over an execution: how classes
are initialized, who decides, and what is left open in a call.
-/

namespace SymbolicBytecode

structure Engine where
  heapLimit : Option Nat
  host : Host
  policy : InitializationPolicy
  oracle : Oracle
  strategies : Strategies

namespace Engine

/-- A state with a single frame, for a method that is called with the given arguments. -/
def initialState (engine : Engine) (hierarchy : Hierarchy) (root : Signature)
    (args : List Value) : Except ExecutionError State :=
  let s := .create hierarchy engine.heapLimit engine.host
  match (Exec.pushFrame root true 0 args).apply (.start s) with
  | (.ok (), σ) => .ok σ.state
  | (.error e, _) => .error (.state e)

def ensureKlass (engine : Engine) (className : String) : Exec ExecutionError Bool :=
  Exec.ensureKlass engine.policy engine.oracle className

/-- Execute the current instruction as a call of the given kind. -/
def invoke (engine : Engine) (kind : InvokeKind) : Exec ExecutionError Completion :=
  Exec.invoke engine.policy engine.oracle engine.strategies kind

/-- Execute the current instruction. -/
def step (engine : Engine) : Exec ExecutionError Completion := do
  let f ← (← Exec.state).currentFrame.mapError ExecutionError.state
  let opcode ← f.currentOpcode.mapError ExecutionError.state
  Exec.note (.instruction opcode f.pc)
  match InvokeKind.ofOpcode? opcode with
  | some kind => engine.invoke kind
  | none => throw (.unsupportedOpcode opcode f.pc)

end Engine

end SymbolicBytecode

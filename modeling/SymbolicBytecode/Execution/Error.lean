import SymbolicBytecode.Event

/-!
# Faults of execution

Faults that end the execution of a branch. The program under execution never sees them.
-/

namespace SymbolicBytecode

/-- The decision oracle has no answer. -/
structure DecisionError where
  reason : String
  deriving DecidableEq, Repr

def DecisionError.message (e : DecisionError) : String :=
  "decision procedure failed: " ++ e.reason

inductive ExecutionError where
  | decision (e : DecisionError)
  | state (e : Fault)
  /-- The method has no bytecode and would have to be executed by the host. -/
  | nativeMethod (method : Signature)
  | unsupportedOpcode (opcode : UInt8) (pc : Nat)
  /-- The receiver of a call is not a reference. -/
  | unexpectedReceiver (reference : Signature) (found : Option Value)
  deriving DecidableEq, Repr

def ExecutionError.message : ExecutionError → String
  | decision e => e.message
  | state e => e.message
  | nativeMethod method => "native method " ++ method.text ++ " cannot be executed symbolically"
  | unsupportedOpcode opcode pc =>
    "opcode " ++ Event.hexByte opcode ++ " at " ++ toString pc ++ " is not supported"
  | unexpectedReceiver reference found =>
    "unexpected: receiver of " ++ reference.text ++ " is " ++
      (Inspection.option (found.map Value.inspect)).compact

end SymbolicBytecode

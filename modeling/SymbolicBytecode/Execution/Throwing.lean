import SymbolicBytecode.Execution.Error
import SymbolicBytecode.State.Unwinding

/-!
# Throwing

How the machine throws: it makes the exception, pushes it on the operand stack and unwinds. A frame
that turns out to be malformed on the way throws a verification error instead, for which
malformed handlers do not count.
-/

namespace SymbolicBytecode.Exec

/-- Make an exception and push it on the operand stack of the current frame. -/
def raise (t : Throwable) : Exec Fault Reference := do
  note (.throwing t)
  let p ← createThrowable t.className
  pushOperand (.reference (.concrete p))
  return .concrete p

/-- Throw a verification error from the current frame. -/
def throwVerifyError : Exec ExecutionError Unwinding :=
  mapError .state do
    let ref ← raise .verifyError
    throwFrom ref .lenient

/-- Throw an object. If a frame is malformed, throw a verification error from that frame instead. -/
def throwObject (ref : Reference) : Exec ExecutionError Unwinding := do
  match ← attempt (throwFrom ref .strict) with
  | .ok u => return u
  | .error e =>
    match e with
    | .invalidIndex _ | .invalidProgramCounter _ _ =>
      note (.malformedHandler e)
      throwVerifyError
    | e => throw (.state e)

/-- Throw a new exception of the machine. -/
def createAndThrow (t : Throwable) : Exec ExecutionError Unwinding := do
  if t = .verifyError then throwVerifyError
  else
    let ref ← mapError .state (raise t)
    throwObject ref

end SymbolicBytecode.Exec

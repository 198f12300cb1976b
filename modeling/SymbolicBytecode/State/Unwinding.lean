import SymbolicBytecode.State.Calls

/-!
# Unwinding

An exception leaves frame after frame until one of them handles it. `unwind` says what becomes of a
thread stack; `Exec.throwFrom` carries it out.
-/

namespace SymbolicBytecode

/-- What becomes of a thread stack that an exception goes through. -/
structure Unwound where
  stack : List Frame
  outcome : Except Fault Unwinding
  /-- The events on the way, earliest first. -/
  events : List Event

/-- Leave frames until one handles the exception. A malformed frame ends a strict search with
that frame still on the stack. -/
def unwind (h : Hierarchy) (thrown : String) (ref : Reference) (search : HandlerSearch) :
    List Frame → Unwound
  | [] => ⟨[], .ok .uncaught, [.threadEnded thrown ref]⟩
  | f :: rest =>
    match f.findHandler h thrown search with
    | .error e => ⟨f :: rest, .error e, []⟩
    | .ok (some pc) =>
      ⟨{ f with pc, operands := [.reference ref] } :: rest, .ok (.caught pc),
        [.handlerFound thrown f.signature pc]⟩
    | .ok none =>
      let later := unwind h thrown ref search rest
      { later with events := .handlerMissing thrown f.signature :: later.events }

namespace Exec

def noteAll (events : List Event) : Exec Fault Unit :=
  modify fun σ => { σ with events := events.reverse ++ σ.events }

/-- The thread has ended with this exception. -/
def endThread (ref : Reference) : Exec Fault Unit := do
  let s ← state
  setState { s with uncaught := some ref }

/-- Throw an object from the current frame. -/
def throwFrom (ref : Reference) (search : HandlerSearch) : Exec Fault Unwinding := do
  let s ← state
  let thrown ← s.classOf ref
  if s.stack.isEmpty then throw .threadStackEmpty
  else
    let result := unwind s.hierarchy thrown ref search s.stack
    setStack result.stack
    noteAll result.events
    match result.outcome with
    | .error e => throw e
    | .ok .uncaught =>
      endThread ref
      return .uncaught
    | .ok (.caught pc) => return .caught pc

end Exec

end SymbolicBytecode

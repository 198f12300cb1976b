import SymbolicBytecode.State.Statics

/-!
# Calls and returns

Pushing and completing frames. A caller remembers where it resumes, counted from the instruction
that made the call; when a class initialization method completes, its class is initialized.
-/

namespace SymbolicBytecode.Exec

/-- Change the current frame. -/
def updateFrame {α : Type} (f : Frame → Except Fault (α × Frame)) : Exec Fault α := do
  let s ← state
  match s.stack with
  | [] => throw .threadStackEmpty
  | frame :: rest =>
    let (result, frame) ← f frame
    setStack (frame :: rest)
    return result

def pushOperand (v : Value) : Exec Fault Unit := updateFrame fun f => return ((), f.push v)

def popOperands (count : Nat) : Exec Fault (List Value) := updateFrame (·.pop count)

/-- Push a frame; the current frame resumes at its position plus the offset. -/
def pushPrepared (frame : Frame) (returnOffset : Nat) : Exec Fault Unit := do
  note (.framePushed frame.signature)
  match (← state).stack with
  | [] => setStack [frame]
  | caller :: rest => setStack (frame :: caller.setReturnOffset returnOffset :: rest)

/-- Push a frame for a method with its arguments, receiver first. A root frame has no caller that it
returns to. -/
def pushFrame (signature : Signature) (isRoot : Bool) (returnOffset : Nat) (args : List Value) :
    Exec Fault Unit := do
  let s ← state
  let c ← (s.hierarchy.find signature.className).mapError Fault.link
  match c.method? signature.name signature.descriptor with
  | none => throw (.link (.methodNotFound signature))
  | some m =>
    let frame ← Frame.create signature c m args
    if isRoot then setStack (frame :: s.stack) else pushPrepared frame returnOffset

def popFrame : Exec Fault Frame := do
  match (← state).stack with
  | [] => throw .threadStackEmpty
  | frame :: rest =>
    setStack rest
    return frame

/-- A class whose initialization method has completed is initialized. -/
def finishInitializer (method : Signature) : Exec Fault Unit := do
  if method.isInitializer then
    match (← state).statics.get? method.className with
    | some k => insertKlass method.className { k with status := .initialized }
    | none => return ()
  else return ()

/-- Return from the current frame: its caller resumes where it said it would, with the value of the
call on its operand stack. -/
def completeFrame (result : Option Value) : Exec Fault Unit := do
  let frame ← popFrame
  finishInitializer frame.signature
  match (← state).stack with
  | [] => return ()
  | caller :: rest =>
    let caller ← caller.setPc caller.returnPc
    setStack (((result.map caller.push).getD caller) :: rest)

end SymbolicBytecode.Exec

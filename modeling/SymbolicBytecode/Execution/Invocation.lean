import SymbolicBytecode.Execution.Initialization

/-!
# Invocations

A call goes through six phases: its method reference is resolved, the operands are checked, the
class of a static method is initialized, the method to execute is selected, it may be overridden
from outside, and its frame is pushed. Each phase may interrupt the call; the later ones are then
left out.
-/

namespace SymbolicBytecode

/-- A call whose method reference has been resolved. -/
structure Invocation where
  kind : InvokeKind
  accessor : String
  reference : Signature
  pc : Nat
  method : ResolvedMethod
  deriving DecidableEq, Repr

def Invocation.arity (i : Invocation) : Except MalformedDescriptor Nat := do
  let d ← i.method.signature.methodDescriptor
  return d.params.length + if i.kind.hasReceiver then 1 else 0

/-- What is left to the user of the machine in a call. -/
structure Strategies where
  check : State → Invocation → Option Throwable
  override : State → Invocation → Option Implementation → Option Implementation
  returnOffset : Invocation → Nat

/-- Why a call ended before its frame was pushed. -/
inductive Interrupt where
  | thrown (t : Throwable) (u : Unwinding)
  /-- Initialization methods are to run first; then the call is made again. -/
  | deferred (frames : Nat)
  | fault (e : ExecutionError)
  deriving DecidableEq, Repr

inductive Completion where
  | invoked (method : Signature)
  /-- The instruction was changed to this opcode, and nothing else happened. -/
  | patched (opcode : UInt8)
  | deferred (frames : Nat)
  | thrown (t : Throwable) (u : Unwinding)
  deriving DecidableEq, Repr

def receiverProblem (s : State) : Option Value → Option Throwable
  | some .null => some .nullPointerException
  | some (.reference ref) =>
    match s.resolve? ref with
    | some .null => some .nullPointerException
    | _ => none
  | _ => some .verifyError

/-- The usual check: the method is static just if the call is, the operands are all there, and the
receiver is an object. -/
def checkOperands (s : State) (i : Invocation) : Option Throwable :=
  if !i.method.polymorphic && i.method.isStatic != (i.kind == .static) then
    some .incompatibleClassChangeError
  else
    match i.method.signature.methodDescriptor, s.currentFrame with
    | .ok d, .ok f =>
      let params := d.params.length
      if f.operands.length < params + (if i.kind.hasReceiver then 1 else 0) then some .verifyError
      else if i.kind.hasReceiver then receiverProblem s (f.peek? params)
      else none
    | _, _ => some .verifyError

def Strategies.standard : Strategies where
  check := checkOperands
  override _ _ found := found
  returnOffset i := i.kind.length

def resolutionFailure : LinkError → Throwable
  | .classNotFound _ => .noClassDefFoundError
  | .classIllFormed _ => .verifyError
  | .incompatible _ => .incompatibleClassChangeError
  | .methodNotFound _ => .noSuchMethodError
  | .methodNotAccessible _ => .illegalAccessError
  | .methodAbstract _ => .abstractMethodError

def selectionFailure : LinkError → Throwable
  | .methodAbstract _ => .abstractMethodError
  | .methodNotAccessible _ => .illegalAccessError
  | .incompatible _ => .incompatibleClassChangeError
  | .methodNotFound _ => .noSuchMethodError
  | .classNotFound _ | .classIllFormed _ => .verifyError

def State.currentReference (s : State) : Except Fault (Frame × MemberRef) := do
  let f ← s.currentFrame
  let index ← f.readWord (f.pc + 1)
  let member ← (f.owner.pool.memberRef index).mapError .invalidIndex
  return (f, member)

def InvokeKind.accepts : InvokeKind → MemberKind → Bool
  | _, .field => false
  | .virtual, .interfaceMethod => false
  | .interface, .method => false
  | _, _ => true

namespace Exec

def interruptWith {α : Type} (t : Throwable) : Exec Interrupt α := do
  match ← attempt (createAndThrow t) with
  | .ok u => throw (.thrown t u)
  | .error e => throw (.fault e)

def resolvePhase (kind : InvokeKind) : Exec Interrupt Invocation := do
  let s ← state
  match s.currentReference with
  | .error e =>
    match e with
    | .invalidIndex _ | .invalidProgramCounter _ _ =>
      note (.malformedInvocation e)
      interruptWith .verifyError
    | e => throw (.fault (.state e))
  | .ok (f, member) =>
    let reference : Signature := ⟨member.className, member.name, member.descriptor⟩
    if !kind.accepts member.kind then
      note (.mismatchedReference kind member.kind reference)
      interruptWith .verifyError
    else
      match reference.methodDescriptor with
      | .error _ => interruptWith .verifyError
      | .ok _ =>
        let isInterface := member.kind == .interfaceMethod
        match s.hierarchy.resolveMethod f.owner.name reference isInterface with
        | .error e =>
          note (.resolutionFailed reference e)
          interruptWith (resolutionFailure e)
        | .ok method =>
          note (.resolved reference method.signature)
          return ⟨kind, f.owner.name, reference, f.pc, method⟩

def checkPhase (strategies : Strategies) (i : Invocation) : Exec Interrupt Unit := do
  match strategies.check (← state) i with
  | some t => interruptWith t
  | none => return ()

def preparePhase (policy : InitializationPolicy) (oracle : Oracle) (i : Invocation) :
    Exec Interrupt Unit := do
  if i.kind = .static then
    match ← attempt (initializeClass policy oracle i.method.signature.className) with
    | .ok (.created frames) => if 0 < frames then throw (.deferred frames) else return ()
    | .ok (.failed t u) => throw (.thrown t u)
    | .ok .already => return ()
    | .error (.state .heapMemoryExhausted) => interruptWith .outOfMemoryError
    | .error e => throw (.fault e)
  else return ()

/-- The class in which selection starts. An unresolved symbolic receiver counts as an object of its
declared class. -/
def receiverClassName (i : Invocation) : Exec ExecutionError String := do
  let s ← state
  let arity ← i.arity.mapError fun e => ExecutionError.state (.descriptor e)
  let f ← s.currentFrame.mapError ExecutionError.state
  match f.peek? (arity - 1) with
  | some (.reference ref) =>
    match s.resolve? ref, ref with
    | none, .symbolic ref => return ref.staticType
    | _, ref => (s.classOf ref).mapError ExecutionError.state
  | other => throw (.unexpectedReceiver i.reference other)

def lookup (i : Invocation) : Exec ExecutionError (Except LinkError Implementation) := do
  let h := (← state).hierarchy
  match i.kind with
  | .static => return h.lookupStatic i.method
  | .special => return h.lookupSpecial i.accessor i.method
  | .virtual => return h.lookupVirtual (← receiverClassName i) i.method false
  | .interface => return h.lookupVirtual (← receiverClassName i) i.method true

/-- Select the method to execute. A signature-polymorphic method is not selected but linked through
its method handle. A method that is not found is reported later. -/
def selectPhase (i : Invocation) : Exec Interrupt (Option Implementation) := do
  if i.method.polymorphic then return some ⟨i.method.signature, i.method.accessFlags⟩
  else
    match ← mapError .fault (lookup i) with
    | .ok implementation => return some implementation
    | .error (.methodNotFound _) => return none
    | .error e =>
      note (.selectionFailed i.reference e)
      interruptWith (selectionFailure e)

def overridePhase (strategies : Strategies) (i : Invocation) (found : Option Implementation) :
    Exec Interrupt (Option Implementation) := do
  let chosen := strategies.override (← state) i found
  let before := found.map Implementation.signature
  let after := chosen.map Implementation.signature
  if before ≠ after then note (.overridden i.reference before after)
  return chosen

def callPhase (strategies : Strategies) (i : Invocation) (m : Implementation) :
    Exec Interrupt Completion := do
  let args ← mapError (.fault ∘ .state) do
    popOperands (← i.arity.mapError Fault.descriptor)
  match ← attempt (pushFrame m.signature false (strategies.returnOffset i) args) with
  | .ok () =>
    note (.invoked m.signature)
    return .invoked m.signature
  | .error (.abstractMethod _) => interruptWith .abstractMethodError
  | .error (.invalidSlot _ _) => interruptWith .verifyError
  | .error e => throw (.fault (.state e))

def commitPhase (strategies : Strategies) (i : Invocation) (found : Option Implementation) :
    Exec Interrupt Completion := do
  match found with
  | none => interruptWith .noSuchMethodError
  | some m =>
    if i.method.polymorphic then
      mapError (.fault ∘ .state) (updateFrame fun f => do
        return ((), ← f.patch i.pc invokeHandleOpcode))
      note (.patched i.reference i.pc)
      return .patched invokeHandleOpcode
    else if m.isNative then throw (.fault (.nativeMethod m.signature))
    else if m.isAbstract then interruptWith .abstractMethodError
    else callPhase strategies i m

def invocationPhases (policy : InitializationPolicy) (oracle : Oracle) (strategies : Strategies)
    (kind : InvokeKind) : Exec Interrupt Completion := do
  let i ← resolvePhase kind
  checkPhase strategies i
  preparePhase policy oracle i
  let found ← selectPhase i
  let chosen ← overridePhase strategies i found
  commitPhase strategies i chosen

/-- Make a call. One that was interrupted has completed too, unless it faulted. -/
def invoke (policy : InitializationPolicy) (oracle : Oracle) (strategies : Strategies)
    (kind : InvokeKind) : Exec ExecutionError Completion := do
  match ← attempt (invocationPhases policy oracle strategies kind) with
  | .ok c => return c
  | .error (.thrown t u) =>
    note (.instructionThrew t u)
    return .thrown t u
  | .error (.deferred frames) =>
    note (.instructionDeferred frames)
    return .deferred frames
  | .error (.fault e) => throw e

end Exec

end SymbolicBytecode

import SymbolicBytecode.Execution.Oracle
import SymbolicBytecode.Execution.Throwing

/-!
# Class initialization

A class that is used for the first time either was initialized before the execution began, which is
for the oracle to decide, or is initialized now. Then its superclasses that are not initialized are
initialized with it. In a first pass up the chain every class gets its static entry and the frame
of its initialization method is made; only when all of that has succeeded are the frames pushed,
the superclass last, so that it runs first. A failure takes back the frames and throws.
-/

namespace SymbolicBytecode

structure InitializationPolicy where
  /-- Enum classes are never assumed to have been initialized before. -/
  forceEnums : Bool
  /-- A failed initialization also removes the static entries it made. -/
  removeKlasses : Bool
  deriving DecidableEq, Repr

def InitializationPolicy.standard : InitializationPolicy := ⟨true, false⟩

inductive Initialization where
  | already
  /-- The class is being initialized; this many initialization methods are to run first. -/
  | created (frames : Nat)
  | failed (t : Throwable) (u : Unwinding)
  deriving DecidableEq, Repr

inductive FailureCause where
  | throws (t : Throwable)
  | fault (e : ExecutionError)
  deriving DecidableEq, Repr

/-- A failed initialization with what has to be taken back. -/
structure Abandoned where
  cause : FailureCause
  created : List String
  frames : Nat
  deriving DecidableEq, Repr

structure Staged where
  className : String
  frame : Option Frame
  deriving DecidableEq

/-- Failures to create a static entry, as the program sees them. -/
def creationFailure : Fault → FailureCause
  | .invalidIndex _ | .descriptor _ | .link (.classIllFormed _) => .throws .verifyError
  | .link (.classNotFound _) => .throws .noClassDefFoundError
  | e => .fault (.state e)

def initializerFailure : Fault → FailureCause
  | .link (.incompatible _) => .throws .incompatibleClassChangeError
  | .nativeMethod _ | .abstractMethod _ | .invalidIndex _ | .descriptor _
  | .link (.methodNotFound _) | .link (.classIllFormed _) => .throws .verifyError
  | e => .fault (.state e)

namespace Exec

def decideInitialized (policy : InitializationPolicy) (oracle : Oracle) (className : String) :
    Exec ExecutionError Bool := do
  if policy.forceEnums && (← state).hierarchy.isSubclass className enumClass then
    note (.enumForced className)
    return false
  else ask oracle className

/-- Whether a superclass has to be initialized along with its subclass. One that is assumed to have
been initialized before gets its static entry at once. -/
def needsInitialization (policy : InitializationPolicy) (oracle : Oracle) (className : String) :
    Exec FailureCause Bool := do
  if (← state).hasKlass className then return false
  else if ← mapError .fault (decideInitialized policy oracle className) then
    note (.assumedInitialized className true)
    mapError creationFailure (assumeClassInitialized className)
    return false
  else
    note (.assumedNotInitialized className true)
    mapError creationFailure (assumeClassNotInitialized className)
    return true

/-- Create the static entries of a chain of classes, subclass first, as far as they have to be
initialized, and make the frames of their initialization methods. The result has superclasses
first; `created` are the classes that got an entry before. -/
def stage (policy : InitializationPolicy) (oracle : Oracle) (created : List String) :
    List String → Exec Abandoned (List Staged)
  | [] => return []
  | className :: rest => do
    mapError (⟨creationFailure ·, created, 0⟩) (createKlass className)
    let created := created ++ [className]
    let needed ← match rest with
      | [] => pure false
      | superName :: _ =>
        mapError (⟨·, created, 0⟩) (needsInitialization policy oracle superName)
    let above ← if needed then stage policy oracle created rest else pure []
    let created := created ++ above.reverse.map Staged.className
    let frame ← mapError (⟨initializerFailure ·, created, 0⟩)
      ((← state).initializerFrame className : Exec Fault (Option Frame))
    note (.staged className frame.isSome)
    return above ++ [⟨className, frame⟩]

/-- Push the staged frames, subclass first, and record that their classes are being initialized. The
caller resumes at the instruction that caused the initialization. Gives the number of frames
pushed, `frames` of them before. -/
def commit (created : List String) (frames : Nat) : List Staged → Exec Abandoned Nat
  | [] => return frames
  | ⟨className, frame⟩ :: rest => do
    let fail (n : Nat) (e : Fault) : Abandoned := ⟨.fault (.state e), created, n⟩
    match frame with
    | some frame =>
      mapError (fail frames) (pushPrepared frame 0)
      mapError (fail (frames + 1)) (setKlassStatus className .initializing)
      commit created (frames + 1) rest
    | none =>
      mapError (fail frames) (setKlassStatus className .initialized)
      commit created frames rest

def popFrames : Nat → Exec Fault Unit
  | 0 => return ()
  | n + 1 => do
    let _ ← popFrame
    popFrames n

def removeKlasses : List String → Exec Fault Unit
  | [] => return ()
  | className :: rest => do
    let _ ← removeKlass className
    removeKlasses rest

def rollBack (policy : InitializationPolicy) (className : String) (a : Abandoned) :
    Exec Fault Unit := do
  popFrames a.frames
  if policy.removeKlasses then removeKlasses a.created.reverse
  note (.initializationFailed className a.frames policy.removeKlasses a.created.length)

def failInitialization (cause : FailureCause) : Exec ExecutionError Initialization :=
  match cause with
  | .throws t => do
    let u ← createAndThrow t
    return .failed t u
  | .fault e => throw e

def initializeClass (policy : InitializationPolicy) (oracle : Oracle) (className : String) :
    Exec ExecutionError Initialization := do
  let s ← state
  if s.hasKlass className then return .already
  else if ← decideInitialized policy oracle className then
    note (.assumedInitialized className false)
    match ← attempt (assumeClassInitialized className) with
    | .ok () => return .already
    | .error e => failInitialization (creationFailure e)
  else
    note (.assumedNotInitialized className false)
    mapError .state (assumeClassNotInitialized className)
    let outcome ← attempt do
      let staged ← stage policy oracle [] (s.hierarchy.initializationChain className)
      commit (staged.reverse.map Staged.className) 0 staged.reverse
    match outcome with
    | .ok frames => return .created frames
    | .error a =>
      mapError .state (rollBack policy className a)
      failInitialization a.cause

/-- Make sure that a class has a static entry. Tells whether initialization methods are to run
before execution can go on. -/
def ensureKlass (policy : InitializationPolicy) (oracle : Oracle) (className : String) :
    Exec ExecutionError Bool := do
  match ← initializeClass policy oracle className with
  | .created frames => return 0 < frames
  | .already | .failed _ _ => return false

end Exec

end SymbolicBytecode

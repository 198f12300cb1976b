import SymbolicBytecode.Hierarchy.Selection
import SymbolicBytecode.Instruction
import SymbolicBytecode.Loading.Error
import SymbolicBytecode.State.Basic
import SymbolicBytecode.Throwable

/-!
# Events

What execution reports about itself while it runs. Every event has a severity, a part of the machine
that it comes from, and a text; a log line is made of the three.
-/

namespace SymbolicBytecode

inductive Severity where
  | error
  | warn
  | info
  | debug
  | trace
  deriving DecidableEq, Repr

namespace Severity

def all : List Severity := [error, warn, info, debug, trace]

def label : Severity → String
  | error => "ERROR"
  | warn => "WARN"
  | info => "INFO"
  | debug => "DEBUG"
  | trace => "TRACE"

/-- Larger for less severe events. -/
def rank : Severity → Nat
  | error => 1
  | warn => 2
  | info => 3
  | debug => 4
  | trace => 5

end Severity

/-- The least severe events that are reported; `none` reports nothing. -/
abbrev Threshold := Option Severity

def Threshold.admits (t : Threshold) (s : Severity) : Bool :=
  match t with
  | some limit => s.rank ≤ limit.rank
  | none => false

inductive Event where
  | klassCreated (className : String)
  | framePushed (method : Signature)
  | handlerFound (thrown : String) (method : Signature) (pc : Nat)
  | handlerMissing (thrown : String) (method : Signature)
  | threadEnded (thrown : String) (ref : Reference)
  | throwing (t : Throwable)
  | malformedHandler (e : Fault)
  | enumForced (className : String)
  | assumedInitialized (className : String) (isSuperclass : Bool)
  | assumedNotInitialized (className : String) (isSuperclass : Bool)
  | staged (className : String) (withInitializer : Bool)
  | initializationFailed (className : String) (frames : Nat) (removed : Bool) (klasses : Nat)
  | instructionThrew (t : Throwable) (u : Unwinding)
  | instructionDeferred (frames : Nat)
  | instruction (opcode : UInt8) (pc : Nat)
  | malformedInvocation (e : Fault)
  | mismatchedReference (kind : InvokeKind) (member : MemberKind) (reference : Signature)
  | resolutionFailed (reference : Signature) (e : LinkError)
  | resolved (reference method : Signature)
  | selectionFailed (reference : Signature) (e : LinkError)
  | overridden (reference : Signature) (before after : Option Signature)
  | patched (reference : Signature) (pc : Nat)
  | invoked (method : Signature)
  | loading (className path : String)
  | loaded (className : String)
  | notListed (e : FileError)
  | notLoaded (e : LoadError)
  deriving DecidableEq, Repr

namespace Event

/-- The part of the machine that an event comes from. -/
def target : Event → String
  | klassCreated .. | framePushed .. | handlerFound .. | handlerMissing .. | threadEnded .. =>
    "symbolic_jvm::vm::state"
  | throwing .. | malformedHandler .. => "symbolic_jvm::engine::exceptions"
  | enumForced .. | assumedInitialized .. | assumedNotInitialized .. | staged ..
  | initializationFailed .. => "symbolic_jvm::engine::clinit"
  | instructionThrew .. | instructionDeferred .. => "symbolic_jvm::engine::pipeline"
  | instruction .. => "symbolic_jvm::engine"
  | malformedInvocation .. | mismatchedReference .. | resolutionFailed .. | resolved ..
  | selectionFailed .. | overridden .. | patched .. | invoked .. => "symbolic_jvm::engine::invoke"
  | loading .. | loaded .. | notListed .. | notLoaded .. => "symbolic_jvm::vm::class_loader"

def severity : Event → Severity
  | malformedHandler .. | initializationFailed .. | notListed .. | notLoaded .. => .warn
  | klassCreated .. | framePushed .. | handlerMissing .. | staged .. | instruction ..
  | resolved .. | loading .. => .trace
  | _ => .debug

def inspectSignature (s : Option Signature) : String :=
  (Inspection.option (s.map Signature.inspect)).compact

def hexByte (b : UInt8) : String := "0x" ++ Text.hexPadded 2 b.toNat

def text : Event → String
  | klassCreated className => "created Klass for " ++ className
  | framePushed method => "pushed frame for " ++ method.text
  | handlerFound thrown method pc =>
    thrown ++ " caught in " ++ method.text ++ " at " ++ toString pc
  | handlerMissing thrown method => thrown ++ " not caught in " ++ method.text
  | threadEnded thrown ref => "uncaught " ++ thrown ++ " " ++ ref.text ++ ", thread terminated"
  | throwing t => "throwing " ++ t.className
  | malformedHandler e =>
    "malformed exception handler metadata (" ++ e.message ++ "), throwing VerifyError"
  | enumForced className => className ++ " is an enum, assuming it is not initialized"
  | assumedInitialized className isSuperclass =>
    "assuming " ++ (if isSuperclass then "superclass " else "") ++ className ++ " initialized"
  | assumedNotInitialized className isSuperclass =>
    "assuming " ++ (if isSuperclass then "superclass " else "") ++ className ++ " not initialized"
  | staged className withInitializer =>
    "staged " ++ className ++ " (" ++ (if withInitializer then "with" else "no") ++ " initializer)"
  | initializationFailed className frames removed klasses =>
    "initialization of " ++ className ++ " failed: popped " ++ toString frames ++ " frames, " ++
      (if removed then "removed " else "kept ") ++ toString klasses ++ " Klasses"
  | instructionThrew t u =>
    "instruction interrupted by " ++ t.className ++ " (" ++ u.inspect.compact ++ ")"
  | instructionDeferred frames =>
    "instruction deferred behind " ++ toString frames ++ " class initializers"
  | instruction opcode pc => hexByte opcode ++ " at " ++ toString pc
  | malformedInvocation e => "malformed invocation: " ++ e.message
  | mismatchedReference kind member reference =>
    kind.label ++ " of a " ++ member.label ++ " reference to " ++ reference.text
  | resolutionFailed reference e => "resolution of " ++ reference.text ++ " failed: " ++ e.message
  | resolved reference method => reference.text ++ " resolved to " ++ method.text
  | selectionFailed reference e => "selection for " ++ reference.text ++ " failed: " ++ e.message
  | overridden reference before after =>
    "implementation of " ++ reference.text ++ " overridden: " ++ inspectSignature before ++
      " -> " ++ inspectSignature after
  | patched reference pc => reference.text ++ " at " ++ toString pc ++ " rewritten to invokehandle"
  | invoked method => "invoked " ++ method.text
  | loading className path => "loading " ++ className ++ " from " ++ path
  | loaded className => "loaded " ++ className
  | notListed e => "cannot list classpath: " ++ e.message
  | notLoaded e => e.message

/-- The log line of an event. -/
def line (e : Event) : String :=
  "[" ++ e.target ++ "] [" ++ e.severity.label ++ "] " ++ e.text

end Event

end SymbolicBytecode

import SymbolicBytecode.Hierarchy.Basic
import SymbolicBytecode.Value

/-!
# Faults of the primitives

Why an operation on a state failed. Which of these the program under execution gets to see, and as
which exception, is decided where they are handled.
-/

namespace SymbolicBytecode

inductive Fault where
  | threadStackEmpty
  | invalidProgramCounter (method : Signature) (pc : Nat)
  | invalidIndex (e : InvalidIndex)
  | invalidSlot (method : Signature) (slot : Nat)
  | operandStackUnderflow (method : Signature)
  | heapMemoryExhausted
  | invalidHeapPosition (position : Nat)
  | unresolvedReference (id : Nat)
  | alreadyResolved (id : Nat)
  | nullReference
  | arrayIndexOutOfBounds (index : Int32) (length : Nat)
  | negativeArraySize (length : Int32)
  | noSuchField (className field : String)
  | klassNotFound (className : String)
  | nativeMethod (method : Signature)
  | abstractMethod (method : Signature)
  | link (e : LinkError)
  | descriptor (e : MalformedDescriptor)
  deriving DecidableEq, Repr

def Fault.message : Fault → String
  | threadStackEmpty => "the thread stack is empty"
  | invalidProgramCounter method pc =>
    "program counter " ++ toString pc ++ " is outside the code of " ++ method.text
  | invalidIndex e => e.message
  | invalidSlot method slot =>
    "local variable slot " ++ toString slot ++ " does not exist in " ++ method.text
  | operandStackUnderflow method => "operand stack underflow in " ++ method.text
  | heapMemoryExhausted => "heap memory exhausted"
  | invalidHeapPosition position => "no object at heap position " ++ toString position
  | unresolvedReference id => "symbolic reference \x7bR" ++ toString id ++ "\x7d is not resolved"
  | alreadyResolved id => "symbolic reference \x7bR" ++ toString id ++ "\x7d is already resolved"
  | nullReference => "null reference"
  | arrayIndexOutOfBounds index length =>
    "array index " ++ toString index.toInt ++ " out of bounds for length " ++ toString length
  | negativeArraySize length => "negative array size " ++ toString length.toInt
  | noSuchField className field => "no field " ++ field ++ " in " ++ className
  | klassNotFound className => "no Klass for " ++ className ++ " in the static store"
  | nativeMethod method => method.text ++ " must be executed natively"
  | abstractMethod method => method.text ++ " has no code"
  | link e => e.message
  | descriptor e => e.message

end SymbolicBytecode

/-!
# Invocation instructions

The four instructions that call a method, and the one that a call of a signature-polymorphic
method is changed into.
-/

namespace SymbolicBytecode

inductive InvokeKind where
  | virtual
  | special
  | static
  | interface
  deriving DecidableEq, Repr

namespace InvokeKind

def all : List InvokeKind := [virtual, special, static, interface]

def opcode : InvokeKind → UInt8
  | virtual => 0xb6
  | special => 0xb7
  | static => 0xb8
  | interface => 0xb9

def ofOpcode? (opcode : UInt8) : Option InvokeKind :=
  all.find? (·.opcode = opcode)

def label : InvokeKind → String
  | virtual => "Virtual"
  | special => "Special"
  | static => "Static"
  | interface => "Interface"

/-- Every call but a static one is made on a receiver. -/
def hasReceiver (kind : InvokeKind) : Bool := kind ≠ static

/-- The bytes that the instruction takes: an opcode and an index, and two more bytes after an
interface call. -/
def length (kind : InvokeKind) : Nat := if kind = interface then 5 else 3

end InvokeKind

/-- The opcode of a call that goes straight to a method handle. -/
def invokeHandleOpcode : UInt8 := 0xe9

end SymbolicBytecode

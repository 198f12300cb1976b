import SymbolicBytecode.Fault
import SymbolicBytecode.Hierarchy.Subtyping

/-!
# Frames

The execution of one method: its code, its position in it, its local variables and its operand
stack. The code belongs to the frame, because a call can change its own instruction. A frame also
knows where it resumes after the call it made last.
-/

namespace SymbolicBytecode

structure Frame where
  signature : Signature
  /-- The class that declares the method, whose constants the code refers to. -/
  owner : ClassFile
  code : List UInt8
  handlers : List Handler
  pc : Nat
  /-- Where execution resumes when the method called last returns. -/
  returnPc : Nat
  /-- A wide value is followed by an empty slot. -/
  locals : List (Option Value)
  /-- The operand stack, latest operand first. -/
  operands : List Value
  deriving DecidableEq, Repr

inductive HandlerSearch where
  /-- A malformed handler, or a position outside the code, is a fault. -/
  | strict
  /-- Malformed handlers are passed over; outside its code a frame has no handler. -/
  | lenient
  deriving DecidableEq, Repr

namespace Frame

/-- The local variables that hold the given arguments, one after the other from `slot` on with
`room` slots left, or the slot of the first argument that does not fit. -/
def layOutLocals (slot room : Nat) : List Value → Except Nat (List (Option Value))
  | [] => .ok (List.replicate room none)
  | v :: rest =>
    if v.slots ≤ room then do
      let tail ← layOutLocals (slot + v.slots) (room - v.slots) rest
      return some v :: (List.replicate (v.slots - 1) none ++ tail)
    else .error slot

/-- A frame at the start of a method, with the arguments (receiver first) in its local variables. -/
def create (signature : Signature) (owner : ClassFile) (m : Method) (args : List Value) :
    Except Fault Frame :=
  match m.code with
  | none =>
    .error (if m.accessFlags.isNative then .nativeMethod signature else .abstractMethod signature)
  | some code =>
    match layOutLocals 0 code.maxLocals.toNat args with
    | .error slot => .error (.invalidSlot signature slot)
    | .ok locals =>
      .ok { signature, owner, code := code.bytes, handlers := code.handlers, pc := 0, returnPc := 0,
            locals, operands := [] }

def invalidPc (f : Frame) (pc : Nat) : Fault := .invalidProgramCounter f.signature pc

def setPc (f : Frame) (pc : Nat) : Except Fault Frame :=
  if pc < f.code.length then .ok { f with pc } else .error (f.invalidPc pc)

def setReturnOffset (f : Frame) (offset : Nat) : Frame := { f with returnPc := f.pc + offset }

def opcodeAt (f : Frame) (pc : Nat) : Except Fault UInt8 :=
  match f.code[pc]? with
  | some b => .ok b
  | none => .error (f.invalidPc pc)

def currentOpcode (f : Frame) : Except Fault UInt8 := f.opcodeAt f.pc

def readWord (f : Frame) (pc : Nat) : Except Fault UInt16 := do
  let high ← f.opcodeAt pc
  let low ← f.opcodeAt (pc + 1)
  return high.toUInt16 <<< 8 ||| low.toUInt16

def patch (f : Frame) (pc : Nat) (opcode : UInt8) : Except Fault Frame :=
  if pc < f.code.length then .ok { f with code := f.code.set pc opcode }
  else .error (f.invalidPc pc)

def localAt (f : Frame) (slot : Nat) : Except Fault (Option Value) :=
  match f.locals[slot]? with
  | some v => .ok v
  | none => .error (.invalidSlot f.signature slot)

def push (f : Frame) (v : Value) : Frame := { f with operands := v :: f.operands }

/-- Take the latest operands off the stack, in the order they were pushed. -/
def pop (f : Frame) (count : Nat) : Except Fault (List Value × Frame) :=
  if count ≤ f.operands.length then
    .ok ((f.operands.take count).reverse, { f with operands := f.operands.drop count })
  else .error (.operandStackUnderflow f.signature)

def peek? (f : Frame) (depth : Nat) : Option Value := f.operands[depth]?

def clearOperands (f : Frame) : Frame := { f with operands := [] }

def catches (h : Hierarchy) (owner : ClassFile) (thrown : String) (entry : Handler) :
    Except InvalidIndex Bool :=
  if entry.catchType = 0 then .ok true
  else do
    let caught ← owner.pool.className entry.catchType
    return h.isSubclass thrown caught

/-- The first of some handlers that catches the exception and lies inside the code. -/
def firstHandler (f : Frame) (h : Hierarchy) (thrown : String) (search : HandlerSearch) :
    List Handler → Except Fault (Option Nat)
  | [] => .ok none
  | entry :: rest =>
    match catches h f.owner thrown entry with
    | .error e =>
      match search with
      | .strict => .error (.invalidIndex e)
      | .lenient => firstHandler f h thrown search rest
    | .ok false => firstHandler f h thrown search rest
    | .ok true =>
      if entry.handlerPc.toNat < f.code.length then .ok (some entry.handlerPc.toNat)
      else
        match search with
        | .strict => .error (f.invalidPc entry.handlerPc.toNat)
        | .lenient => firstHandler f h thrown search rest

def findHandler (f : Frame) (h : Hierarchy) (thrown : String) (search : HandlerSearch) :
    Except Fault (Option Nat) :=
  if f.pc < f.code.length then
    f.firstHandler h thrown search (f.handlers.filter (·.covers f.pc))
  else
    match search with
    | .strict => .error (f.invalidPc f.pc)
    | .lenient => .ok none

end Frame

end SymbolicBytecode

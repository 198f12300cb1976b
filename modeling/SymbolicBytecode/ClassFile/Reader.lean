import SymbolicBytecode.ClassFile.Basic
import SymbolicBytecode.Text.ModifiedUtf8

/-!
# Reading class files

A class file is a big-endian byte string. Each reader takes what it reads off the front of the
bytes and returns the rest. Attributes have a length in front, so that the ones of no interest are
skipped: only the constant of a field and the code of a method are looked into. The names of the
class and its supertypes are followed last, after all bytes have been read.
-/

namespace SymbolicBytecode

abbrev Bytes := List UInt8

inductive ReadError where
  | badMagic
  | unknownTag (tag : UInt8)
  | malformedText (offset : Nat)
  | badIndex (index : PoolIndex)
  | truncated
  | trailing (count : Nat)
  deriving DecidableEq, Repr

def ReadError.message : ReadError → String
  | badMagic => "not a class file: bad magic number"
  | unknownTag tag => "unknown constant pool tag " ++ toString tag.toNat
  | malformedText offset => "illegal modified UTF-8 at byte " ++ toString offset
  | badIndex index =>
    "constant pool index " ++ toString index.toNat ++ " is out of bounds or of the wrong type"
  | truncated => "truncated class file"
  | trailing count => toString count ++ " unexpected bytes after the end of the class file"

abbrev Reader := StateT Bytes (Except ReadError)

namespace Reader

def u1 : Reader UInt8
  | b :: rest => .ok (b, rest)
  | [] => .error .truncated

def u2 : Reader UInt16
  | a :: b :: rest => .ok (a.toUInt16 <<< 8 ||| b.toUInt16, rest)
  | _ => .error .truncated

def u4 : Reader UInt32 := do
  let high ← u2
  let low ← u2
  return high.toUInt32 <<< 16 ||| low.toUInt32

def u8 : Reader UInt64 := do
  let high ← u4
  let low ← u4
  return high.toUInt64 <<< 32 ||| low.toUInt64

def bytes (count : Nat) : Reader Bytes := fun input =>
  if count ≤ input.length then .ok (input.take count, input.drop count) else .error .truncated

/-- Read `count` items one after the other. -/
def repeated {α : Type} (item : Reader α) : Nat → Reader (List α)
  | 0 => pure []
  | count + 1 => do
    let first ← item
    let rest ← repeated item count
    return first :: rest

/-- Read a number of items and then the items. -/
def counted {α : Type} (item : Reader α) : Reader (List α) := do
  let count ← u2
  repeated item count.toNat

def magic : Reader Unit
  | 0xca :: 0xfe :: 0xba :: 0xbe :: rest => .ok ((), rest)
  | _ => .error .badMagic

def text : Reader String := do
  let length ← u2
  let encoded ← bytes length.toNat
  match Text.ModifiedUtf8.decode encoded with
  | .ok value => return value
  | .error offset => throw (.malformedText offset)

/-- The part of a constant that follows its tag. -/
def constantOf (tag : UInt8) : Reader Constant :=
  match tag with
  | 1 => return .utf8 (← text)
  | 3 => return .integer (← u4).toInt32
  | 4 => return .float ⟨← u4⟩
  | 5 => return .long (← u8).toInt64
  | 6 => return .double ⟨← u8⟩
  | 7 => return .classRef (← u2)
  | 8 => return .string (← u2)
  | 9 => return .fieldRef (← u2) (← u2)
  | 10 => return .methodRef (← u2) (← u2)
  | 11 => return .interfaceMethodRef (← u2) (← u2)
  | 12 => return .nameAndType (← u2) (← u2)
  | 15 => return .methodHandle (← u1) (← u2)
  | 16 => return .methodType (← u2)
  | 17 => return .dynamic (← u2) (← u2)
  | 18 => return .invokeDynamic (← u2) (← u2)
  | tag => throw (.unknownTag tag)

def constant : Reader Constant := do
  constantOf (← u1)

/-- Read constants until the slots, one less than the declared count, are taken. -/
def constants (count : Nat) (pool : ConstantPool) : Reader ConstantPool :=
  if pool.size + 1 < count then do
    let c ← constant
    constants count (pool.push c)
  else return pool
termination_by count - pool.size
decreasing_by
  have := pool.size_push c
  split at this <;> omega

def constantPool : Reader ConstantPool := do
  let count ← u2
  constants count.toNat ConstantPool.empty

/-- The value of a pool look-up; a failed one is an error of the class file. -/
def follow {α : Type} (found : Except InvalidIndex α) : Reader α :=
  match found with
  | .ok value => return value
  | .error e => throw (.badIndex e.index)

/-- The name of an attribute and its bytes. -/
def rawAttribute (pool : ConstantPool) : Reader (String × Bytes) := do
  let nameIndex ← u2
  let length ← u4
  let info ← bytes length.toNat
  let name ← follow (pool.utf8 nameIndex)
  return (name, info)

def rawAttributes (pool : ConstantPool) : Reader (List (String × Bytes)) :=
  counted (rawAttribute pool)

/-- Read the bytes of every attribute of one name; the last one counts. Bytes that are left over
inside an attribute are ignored. -/
def lastNamed {α : Type} (wanted : String) (item : Reader α) :
    List (String × Bytes) → Except ReadError (Option α)
  | [] => return none
  | (name, info) :: rest =>
    if name = wanted then do
      let (value, _) ← item info
      let later ← lastNamed wanted item rest
      return later.or (some value)
    else lastNamed wanted item rest

/-- A field or a method, with the contents of the last attribute of the wanted name. -/
def member {α β : Type} (pool : ConstantPool) (wanted : String) (item : Reader α)
    (make : AccessFlags → String → String → Option α → β) : Reader β := do
  let accessFlags ← u2
  let nameIndex ← u2
  let descriptorIndex ← u2
  let attributes ← rawAttributes pool
  let value ← lastNamed wanted item attributes
  let name ← follow (pool.utf8 nameIndex)
  let descriptor ← follow (pool.utf8 descriptorIndex)
  return make accessFlags name descriptor value

def field (pool : ConstantPool) : Reader Field := member pool "ConstantValue" u2 Field.mk

def handler : Reader Handler := do
  let startPc ← u2
  let endPc ← u2
  let handlerPc ← u2
  let catchType ← u2
  return ⟨startPc, endPc, handlerPc, catchType⟩

def code (pool : ConstantPool) : Reader Code := do
  let maxStack ← u2
  let maxLocals ← u2
  let length ← u4
  let body ← bytes length.toNat
  let handlers ← counted handler
  -- line numbers and the like are read over
  let _ ← rawAttributes pool
  return ⟨maxStack, maxLocals, body, handlers⟩

def method (pool : ConstantPool) : Reader Method := member pool "Code" (code pool) Method.mk

def followAll (pool : ConstantPool) : List PoolIndex → Reader (List String)
  | [] => return []
  | index :: rest => do
    let name ← follow (pool.className index)
    let names ← followAll pool rest
    return name :: names

/-- What follows the magic number. -/
def contents : Reader ClassFile := do
  let minorVersion ← u2
  let majorVersion ← u2
  let pool ← constantPool
  let accessFlags ← u2
  let thisIndex ← u2
  let superIndex ← u2
  let interfaceIndices ← counted u2
  let fields ← counted (field pool)
  let methods ← counted (method pool)
  let _ ← rawAttributes pool
  let name ← follow (pool.className thisIndex)
  let superName ← if superIndex = 0 then pure none else some <$> follow (pool.className superIndex)
  let interfaces ← followAll pool interfaceIndices
  return { minorVersion, majorVersion, pool, accessFlags, name, superName, interfaces, fields,
           methods }

def classFile : Reader ClassFile := do
  magic
  contents

end Reader

/-- Read a byte string that holds one class file and nothing after it. -/
def ClassFile.parse (input : Bytes) : Except ReadError ClassFile :=
  match Reader.classFile input with
  | .ok (c, []) => .ok c
  | .ok (_, rest) => .error (.trailing rest.length)
  | .error e => .error e

end SymbolicBytecode

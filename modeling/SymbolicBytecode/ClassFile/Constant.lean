import SymbolicBytecode.Decimal.Binary
import SymbolicBytecode.Table

/-!
# The constant pool

A class file's table of constants. Slots are numbered from one; zero is never an index. A `long` or
`double` constant takes two slots, the second of which is unusable. Constants refer to each other
by index, and the look-ups below follow those references: each of them fails with the index it
was asked for, wherever the chain of references breaks.
-/

namespace SymbolicBytecode

abbrev PoolIndex := UInt16

/-- An index that does not exist or does not hold the kind of constant that was asked for. -/
structure InvalidIndex where
  index : PoolIndex
  deriving DecidableEq, Repr

def InvalidIndex.message (e : InvalidIndex) : String :=
  "invalid constant pool index " ++ toString e.index.toNat

inductive Constant where
  | utf8 (value : String)
  | integer (value : Int32)
  | float (value : Binary32)
  | long (value : Int64)
  | double (value : Binary64)
  | classRef (name : PoolIndex)
  | string (text : PoolIndex)
  | fieldRef (owner nameAndType : PoolIndex)
  | methodRef (owner nameAndType : PoolIndex)
  | interfaceMethodRef (owner nameAndType : PoolIndex)
  | nameAndType (name descriptor : PoolIndex)
  | methodHandle (kind : UInt8) (reference : PoolIndex)
  | methodType (descriptor : PoolIndex)
  | dynamic (bootstrap nameAndType : PoolIndex)
  | invokeDynamic (bootstrap nameAndType : PoolIndex)
  | unusable
  deriving DecidableEq, Repr

def Constant.isWide : Constant → Bool
  | long _ | double _ => true
  | _ => false

inductive MemberKind where
  | field
  | method
  | interfaceMethod
  deriving DecidableEq, Repr

def MemberKind.label : MemberKind → String
  | field => "Field"
  | method => "Method"
  | interfaceMethod => "InterfaceMethod"

/-- A reference to a field or method with all its indices followed. -/
structure MemberRef where
  kind : MemberKind
  className : String
  name : String
  descriptor : String
  deriving DecidableEq, Repr

/-- A constant that a static field can start with. -/
inductive Literal where
  | int (value : Int32)
  | float (value : Binary32)
  | long (value : Int64)
  | double (value : Binary64)
  | string (value : String)
  deriving DecidableEq, Repr

structure ConstantPool where
  slots : Array Constant
  deriving DecidableEq, Repr

namespace ConstantPool

def empty : ConstantPool := ⟨#[]⟩

/-- The number of slots, unusable ones included. -/
def size (pool : ConstantPool) : Nat := pool.slots.size

/-- Append a constant, and the unusable slot after a wide one. -/
def push (pool : ConstantPool) (c : Constant) : ConstantPool :=
  if c.isWide then ⟨(pool.slots.push c).push .unusable⟩ else ⟨pool.slots.push c⟩

/-- The index that the next constant gets. Indices have sixteen bits. -/
def nextIndex (pool : ConstantPool) : PoolIndex := (pool.size + 1).toUInt16

def get? (pool : ConstantPool) (index : PoolIndex) : Option Constant :=
  if index = 0 then none else pool.slots[index.toNat - 1]?

def utf8 (pool : ConstantPool) (index : PoolIndex) : Except InvalidIndex String :=
  match pool.get? index with
  | some (.utf8 value) => .ok value
  | _ => .error ⟨index⟩

/-- The name that a class constant denotes. -/
def className (pool : ConstantPool) (index : PoolIndex) : Except InvalidIndex String :=
  match pool.get? index with
  | some (.classRef name) => (pool.utf8 name).mapError fun _ => ⟨index⟩
  | _ => .error ⟨index⟩

/-- The name and descriptor that a name-and-type constant denotes. -/
def nameAndType (pool : ConstantPool) (index : PoolIndex) :
    Except InvalidIndex (String × String) :=
  match pool.get? index with
  | some (.nameAndType name descriptor) =>
    match pool.utf8 name, pool.utf8 descriptor with
    | .ok name, .ok descriptor => .ok (name, descriptor)
    | _, _ => .error ⟨index⟩
  | _ => .error ⟨index⟩

/-- The kind of a member constant with the indices of its class and of its name and type. -/
def member? (pool : ConstantPool) (index : PoolIndex) :
    Option (MemberKind × PoolIndex × PoolIndex) :=
  match pool.get? index with
  | some (.fieldRef owner nameAndType) => some (.field, owner, nameAndType)
  | some (.methodRef owner nameAndType) => some (.method, owner, nameAndType)
  | some (.interfaceMethodRef owner nameAndType) => some (.interfaceMethod, owner, nameAndType)
  | _ => none

def memberRef (pool : ConstantPool) (index : PoolIndex) : Except InvalidIndex MemberRef :=
  match pool.member? index with
  | none => .error ⟨index⟩
  | some (kind, owner, nameAndType) =>
    match pool.className owner, pool.nameAndType nameAndType with
    | .ok className, .ok (name, descriptor) => .ok ⟨kind, className, name, descriptor⟩
    | _, _ => .error ⟨index⟩

def literal (pool : ConstantPool) (index : PoolIndex) : Except InvalidIndex Literal :=
  match pool.get? index with
  | some (.integer value) => .ok (.int value)
  | some (.float value) => .ok (.float value)
  | some (.long value) => .ok (.long value)
  | some (.double value) => .ok (.double value)
  | some (.string text) =>
    match pool.utf8 text with
    | .ok value => .ok (.string value)
    | .error _ => .error ⟨index⟩
  | _ => .error ⟨index⟩

theorem size_push (pool : ConstantPool) (c : Constant) :
    (pool.push c).size = pool.size + if c.isWide then 2 else 1 := by
  unfold push
  split <;> simp_all [size]

end ConstantPool

end SymbolicBytecode

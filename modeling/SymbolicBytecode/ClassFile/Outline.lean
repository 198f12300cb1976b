import SymbolicBytecode.ClassFile.Basic

/-!
# Class outlines

An outline describes a class by what it contains, without a constant pool. `ClassOutline.build`
makes the class file, entering the requested constants one after the other and the names of the
class and its superclass last. Texts and class names are entered once, however often they are asked
for.
-/

namespace SymbolicBytecode

/-- A constant pool under construction, with the indices of the texts and class names in it. -/
structure PoolBuilder where
  pool : ConstantPool
  texts : Table PoolIndex
  classes : Table PoolIndex

inductive PoolRequest where
  | utf8 (value : String)
  | classRef (name : String)
  | methodRef (signature : Signature)
  | interfaceMethodRef (signature : Signature)
  | integer (value : Int32)
  | long (value : Int64)
  | string (value : String)
  deriving DecidableEq, Repr

namespace PoolBuilder

def empty : PoolBuilder := ⟨ConstantPool.empty, ∅, ∅⟩

/-- Enter a constant without looking for an earlier one. -/
def enter (b : PoolBuilder) (c : Constant) : PoolIndex × PoolBuilder :=
  (b.pool.nextIndex, { b with pool := b.pool.push c })

def utf8 (b : PoolBuilder) (value : String) : PoolIndex × PoolBuilder :=
  match b.texts.get? value with
  | some index => (index, b)
  | none =>
    let (index, b) := b.enter (.utf8 value)
    (index, { b with texts := b.texts.insert value index })

def classRef (b : PoolBuilder) (name : String) : PoolIndex × PoolBuilder :=
  match b.classes.get? name with
  | some index => (index, b)
  | none =>
    let (text, b) := b.utf8 name
    let (index, b) := b.enter (.classRef text)
    (index, { b with classes := b.classes.insert name index })

def nameAndType (b : PoolBuilder) (name descriptor : String) : PoolIndex × PoolBuilder :=
  let (name, b) := b.utf8 name
  let (descriptor, b) := b.utf8 descriptor
  b.enter (.nameAndType name descriptor)

/-- The constants of a member reference; `make` picks its kind. -/
def member (b : PoolBuilder) (signature : Signature) (make : PoolIndex → PoolIndex → Constant) :
    PoolIndex × PoolBuilder :=
  let (owner, b) := b.classRef signature.className
  let (nameAndType, b) := b.nameAndType signature.name signature.descriptor
  b.enter (make owner nameAndType)

def request (b : PoolBuilder) : PoolRequest → PoolIndex × PoolBuilder
  | .utf8 value => b.utf8 value
  | .classRef name => b.classRef name
  | .methodRef signature => b.member signature .methodRef
  | .interfaceMethodRef signature => b.member signature .interfaceMethodRef
  | .integer value => b.enter (.integer value)
  | .long value => b.enter (.long value)
  | .string value =>
    let (text, b) := b.utf8 value
    b.enter (.string text)

/-- The indices given to a sequence of requests, with the pool after them. -/
def requests (b : PoolBuilder) : List PoolRequest → List PoolIndex × PoolBuilder
  | [] => ([], b)
  | r :: rest =>
    let (index, b) := b.request r
    let (indices, b) := b.requests rest
    (index :: indices, b)

end PoolBuilder

structure ClassOutline where
  accessFlags : AccessFlags
  name : String
  superName : Option String
  interfaces : List String
  constants : List PoolRequest
  fields : List Field
  methods : List Method
  deriving Repr

namespace ClassOutline

def objectName : String := "java/lang/Object"

/-- A public class that extends the root class. -/
def publicClass (name : String) : ClassOutline :=
  ⟨0x0021, name, some objectName, [], [], [], []⟩

/-- A public interface. Interfaces name the root class as their superclass too. -/
def publicInterface (name : String) : ClassOutline :=
  ⟨0x0601, name, some objectName, [], [], [], []⟩

/-- The pool after the requested constants, with the indices given to them. -/
def enterConstants (o : ClassOutline) : List PoolIndex × PoolBuilder :=
  PoolBuilder.empty.requests o.constants

/-- The finished pool: a compiled class also names itself and its superclass there. -/
def finishPool (o : ClassOutline) : PoolBuilder :=
  let b := (o.enterConstants.2.classRef o.name).2
  match o.superName with
  | none => b
  | some superName => (b.classRef superName).2

/-- The major version of the class files that outlines become, the latest that can be loaded. -/
def currentMajorVersion : UInt16 := 52

def build (o : ClassOutline) : ClassFile where
  minorVersion := 0
  majorVersion := currentMajorVersion
  pool := o.finishPool.pool
  accessFlags := o.accessFlags
  name := o.name
  superName := o.superName
  interfaces := o.interfaces
  fields := o.fields
  methods := o.methods

end ClassOutline

end SymbolicBytecode

import SymbolicBytecode.ClassFile.Constant
import SymbolicBytecode.Descriptor.Signature

/-!
# Class files

A class or interface as its class file describes it. The names of the class, its supertypes and its
members are spelled out; the indices in bytecode, in exception tables and of constant field values
stay indices, because they are only looked at when execution gets to them.
-/

namespace SymbolicBytecode

/-- The bits that mark access to and properties of classes, fields and methods. -/
abbrev AccessFlags := UInt16

namespace AccessFlags

def isPublic (flags : AccessFlags) : Bool := flags &&& 0x0001 != 0

def isPrivate (flags : AccessFlags) : Bool := flags &&& 0x0002 != 0

def isProtected (flags : AccessFlags) : Bool := flags &&& 0x0004 != 0

def isStatic (flags : AccessFlags) : Bool := flags &&& 0x0008 != 0

/-- On a class: the special invocations in it start at its direct superclass. -/
def isSuper (flags : AccessFlags) : Bool := flags &&& 0x0020 != 0

def isVarargs (flags : AccessFlags) : Bool := flags &&& 0x0080 != 0

def isNative (flags : AccessFlags) : Bool := flags &&& 0x0100 != 0

def isInterface (flags : AccessFlags) : Bool := flags &&& 0x0200 != 0

def isAbstract (flags : AccessFlags) : Bool := flags &&& 0x0400 != 0

/-- Neither public nor protected nor private: visible in its own package. -/
def isPackagePrivate (flags : AccessFlags) : Bool := flags &&& 0x0007 == 0

end AccessFlags

structure Field where
  accessFlags : AccessFlags
  name : String
  descriptor : String
  /-- The constant that a static field starts with. -/
  constantValue : Option PoolIndex
  deriving DecidableEq, Repr

/-- One exception handler. The order of handlers in a method is significant. -/
structure Handler where
  /-- The first covered position. -/
  startPc : UInt16
  /-- The position after the last covered one. -/
  endPc : UInt16
  handlerPc : UInt16
  /-- The class constant of the exceptions it catches; zero for all of them. -/
  catchType : PoolIndex
  deriving DecidableEq, Repr

def Handler.covers (h : Handler) (pc : Nat) : Bool := h.startPc.toNat ≤ pc && pc < h.endPc.toNat

structure Code where
  maxStack : UInt16
  maxLocals : UInt16
  bytes : List UInt8
  handlers : List Handler
  deriving DecidableEq, Repr

structure Method where
  accessFlags : AccessFlags
  name : String
  descriptor : String
  /-- Absent from abstract and native methods. -/
  code : Option Code
  deriving DecidableEq, Repr

structure ClassFile where
  minorVersion : UInt16
  majorVersion : UInt16
  pool : ConstantPool
  accessFlags : AccessFlags
  name : String
  /-- The direct superclass, if there is one. -/
  superName : Option String
  /-- The direct superinterfaces, in declaration order. -/
  interfaces : List String
  fields : List Field
  methods : List Method
  deriving DecidableEq, Repr

namespace ClassFile

def isInterface (c : ClassFile) : Bool := c.accessFlags.isInterface

def isAbstract (c : ClassFile) : Bool := c.accessFlags.isAbstract

def method? (c : ClassFile) (name descriptor : String) : Option Method :=
  c.methods.find? fun m => m.name = name && m.descriptor = descriptor

def field? (c : ClassFile) (name : String) : Option Field :=
  c.fields.find? fun f => f.name = name

def package (c : ClassFile) : String := packageOf c.name

/-- The names of the direct supertypes: the superclass, then the interfaces. -/
def supertypes (c : ClassFile) : List String := c.superName.toList ++ c.interfaces

def staticFields (c : ClassFile) : List Field := c.fields.filter (·.accessFlags.isStatic)

def instanceFields (c : ClassFile) : List Field := c.fields.filter (!·.accessFlags.isStatic)

end ClassFile

end SymbolicBytecode

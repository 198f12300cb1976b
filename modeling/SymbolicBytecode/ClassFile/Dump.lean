import SymbolicBytecode.ClassFile.Basic
import SymbolicBytecode.Inspection

/-!
# Dumps of class files

The inspection tree of a class file, with every constant, field, method and handler.
-/

namespace SymbolicBytecode

def inspectWord (n : UInt16) : Inspection := .nat n.toNat

/-- A reference to a member of a class. -/
def inspectMember (name : String) (owner member : PoolIndex) : Inspection :=
  .record name [("class_index", inspectWord owner), ("name_and_type_index", inspectWord member)]

/-- A constant or call that a bootstrap method computes. -/
def inspectComputed (name : String) (bootstrap member : PoolIndex) : Inspection :=
  .record name [("bootstrap_method_attr_index", inspectWord bootstrap),
    ("name_and_type_index", inspectWord member)]

def Constant.inspect : Constant → Inspection
  | utf8 value => .record "Utf8" [("value", .text value)]
  | integer value => .record "Integer" [("value", .atom (toString value.toInt))]
  | float value => .record "Float" [("value", .atom (value.text Decimal.marked))]
  | long value => .record "Long" [("value", .atom (toString value.toInt))]
  | double value => .record "Double" [("value", .atom (value.text Decimal.marked))]
  | classRef name => .record "Class" [("name_index", inspectWord name)]
  | string text => .record "String" [("string_index", inspectWord text)]
  | fieldRef owner member => inspectMember "FieldRef" owner member
  | methodRef owner member => inspectMember "MethodRef" owner member
  | interfaceMethodRef owner member => inspectMember "InterfaceMethodRef" owner member
  | nameAndType name descriptor =>
    .record "NameAndType" [("name_index", inspectWord name),
      ("descriptor_index", inspectWord descriptor)]
  | methodHandle kind reference =>
    .record "MethodHandle" [("reference_kind", .nat kind.toNat),
      ("reference_index", inspectWord reference)]
  | methodType descriptor => .record "MethodType" [("descriptor_index", inspectWord descriptor)]
  | dynamic bootstrap member => inspectComputed "Dynamic" bootstrap member
  | invokeDynamic bootstrap member => inspectComputed "InvokeDynamic" bootstrap member
  | unusable => .atom "Unusable"

def ConstantPool.inspect (pool : ConstantPool) : Inspection :=
  .record "ConstantPool" [("entries",
    .record "OneIndexedVec" [("vec", .list (pool.slots.toList.map Constant.inspect))])]

def Field.inspect (f : Field) : Inspection :=
  .record "FieldInfo" [("access_flags", inspectWord f.accessFlags), ("name", .text f.name),
    ("descriptor", .text f.descriptor),
    ("constant_value", .option (f.constantValue.map inspectWord))]

def Handler.inspect (h : Handler) : Inspection :=
  .record "ExceptionTableEntry" [("start_pc", inspectWord h.startPc),
    ("end_pc", inspectWord h.endPc), ("handler_pc", inspectWord h.handlerPc),
    ("catch_type", inspectWord h.catchType)]

def Code.inspect (c : Code) : Inspection :=
  .record "Code" [("max_stack", inspectWord c.maxStack), ("max_locals", inspectWord c.maxLocals),
    ("code", .list (c.bytes.map fun b => .nat b.toNat)),
    ("exception_table", .list (c.handlers.map Handler.inspect))]

def Method.inspect (m : Method) : Inspection :=
  .record "MethodInfo" [("access_flags", inspectWord m.accessFlags), ("name", .text m.name),
    ("descriptor", .text m.descriptor), ("code", .option (m.code.map Code.inspect))]

def ClassFile.inspect (c : ClassFile) : Inspection :=
  .record "ClassFile" [("minor_version", inspectWord c.minorVersion),
    ("major_version", inspectWord c.majorVersion), ("constant_pool", c.pool.inspect),
    ("access_flags", inspectWord c.accessFlags), ("name", .text c.name),
    ("super_name", .option (c.superName.map .text)),
    ("interfaces", .list (c.interfaces.map .text)),
    ("fields", .list (c.fields.map Field.inspect)),
    ("methods", .list (c.methods.map Method.inspect))]

end SymbolicBytecode

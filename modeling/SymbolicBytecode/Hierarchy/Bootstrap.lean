import SymbolicBytecode.ClassFile.Outline
import SymbolicBytecode.Hierarchy.Subtyping
import SymbolicBytecode.Hierarchy.Resolution
import SymbolicBytecode.Throwable

/-!
# Bootstrap classes

The classes that execution itself relies on: the root class, strings, enums, the interfaces of array
classes, method handles, and every exception of the machine together with its superclasses.
-/

namespace SymbolicBytecode

def stringClass : String := "java/lang/String"

def enumClass : String := "java/lang/Enum"

def throwableClass : String := "java/lang/Throwable"

namespace Bootstrap

/-- A public constructor that just returns. -/
def constructor : Method := ⟨0x0001, "<init>", "()V", some ⟨1, 1, [0xb1], []⟩⟩

def nativeMethod (accessFlags : AccessFlags) (name descriptor : String) : Method :=
  ⟨accessFlags, name, descriptor, none⟩

def instanceField (accessFlags : AccessFlags) (name descriptor : String) : Field :=
  ⟨accessFlags, name, descriptor, none⟩

def object : ClassOutline :=
  { ClassOutline.publicClass objectClass with
    superName := none
    methods := [constructor, nativeMethod 0x0101 "hashCode" "()I",
      nativeMethod 0x0111 "getClass" "()Ljava/lang/Class;"] }

def string : ClassOutline :=
  { ClassOutline.publicClass stringClass with
    accessFlags := 0x0031
    interfaces := [serializableClass]
    fields := [instanceField 0x0012 "value" "[C", instanceField 0x0002 "hash" "I"]
    methods := [constructor, nativeMethod 0x0101 "intern" "()Ljava/lang/String;"] }

def enum : ClassOutline :=
  { ClassOutline.publicClass enumClass with
    accessFlags := 0x0421
    interfaces := [serializableClass]
    fields := [instanceField 0x0012 "name" "Ljava/lang/String;",
      instanceField 0x0012 "ordinal" "I"] }

def methodHandle : ClassOutline :=
  { ClassOutline.publicClass methodHandleClass with
    accessFlags := 0x0421
    methods := [nativeMethod 0x0191 "invoke" polymorphicDescriptor,
      nativeMethod 0x0191 "invokeExact" polymorphicDescriptor] }

def exceptionClass (name superName : String) : ClassOutline :=
  { ClassOutline.publicClass name with superName := some superName, methods := [constructor] }

def throwable : ClassOutline :=
  { exceptionClass throwableClass objectClass with
    interfaces := [serializableClass]
    fields := [instanceField 0x0002 "detailMessage" "Ljava/lang/String;",
      instanceField 0x0002 "cause" "Ljava/lang/Throwable;"] }

/-- The bootstrap classes. -/
def outlines : List ClassOutline :=
  [object, ClassOutline.publicInterface cloneableClass,
    ClassOutline.publicInterface serializableClass, string, enum, methodHandle, throwable,
    exceptionClass "java/lang/Exception" throwableClass,
    exceptionClass "java/lang/RuntimeException" "java/lang/Exception",
    exceptionClass "java/lang/Error" throwableClass,
    exceptionClass "java/lang/LinkageError" "java/lang/Error",
    exceptionClass "java/lang/VirtualMachineError" "java/lang/Error"] ++
  Throwable.all.map fun t => exceptionClass t.className t.superclass

end Bootstrap

/-- The hierarchy of the bootstrap classes alone. -/
def Hierarchy.bootstrap : Hierarchy :=
  Bootstrap.outlines.foldl (fun h o => h.add o.build) Hierarchy.empty

end SymbolicBytecode

import SymbolicBytecode.Hierarchy.Chain
import SymbolicBytecode.Hierarchy.Subtyping

/-!
# Method resolution

A method reference names a class, but the method may be declared in a superclass or superinterface
of it. Superclasses come first; among superinterfaces, the declarations count that no other
one is more specific than. The class that makes the reference must be allowed to see the result.
-/

namespace SymbolicBytecode

/-- A method together with the class that declares it. -/
structure Declaration where
  owner : ClassFile
  method : Method
  deriving DecidableEq, Repr

def Declaration.signature (d : Declaration) : Signature :=
  ⟨d.owner.name, d.method.name, d.method.descriptor⟩

structure ResolvedMethod where
  /-- Names the class that declares the method. -/
  signature : Signature
  accessFlags : AccessFlags
  /-- Whether calls take any arguments: a signature-polymorphic method of a method handle class. -/
  polymorphic : Bool
  deriving DecidableEq, Repr

def ResolvedMethod.isStatic (m : ResolvedMethod) : Bool := m.accessFlags.isStatic

def ResolvedMethod.isPrivate (m : ResolvedMethod) : Bool := m.accessFlags.isPrivate

/-- The descriptor that every signature-polymorphic method is declared with. -/
def polymorphicDescriptor : String := "([Ljava/lang/Object;)Ljava/lang/Object;"

def methodHandleClass : String := "java/lang/invoke/MethodHandle"

def varHandleClass : String := "java/lang/invoke/VarHandle"

/-- The signature-polymorphic method of a name: a native method with a variable number of arguments,
alone of its name in one of the two handle classes. -/
def ClassFile.polymorphicMethod? (c : ClassFile) (name : String) : Option Method :=
  if c.name = methodHandleClass ∨ c.name = varHandleClass then
    match c.methods.filter (·.name = name) with
    | [m] =>
      if m.accessFlags.isNative && m.accessFlags.isVarargs && m.descriptor = polymorphicDescriptor
      then some m else none
    | _ => none
  else none

namespace Hierarchy

/-- Whether code in `accessor` may use a method. -/
def isAccessible (h : Hierarchy) (accessor : String) (d : Declaration) : Bool :=
  let flags := d.method.accessFlags
  if flags.isPublic then true
  else if flags.isPrivate then accessor = d.owner.name
  else if flags.isProtected && h.isSubclass accessor d.owner.name then true
  else packageOf accessor = d.owner.package

/-- The first class on a chain that declares a method. -/
def firstDeclaring (name descriptor : String) (chain : List ClassFile) : Option Declaration :=
  chain.findSome? fun c => (c.method? name descriptor).map (⟨c, ·⟩)

def findInSuperclasses (h : Hierarchy) (className name descriptor : String) :
    Except LinkError (Option Declaration) := do
  let chain ← h.superclassChain className
  return firstDeclaring name descriptor chain

/-- The declarations of a method in the superinterfaces of a class that can be inherited. -/
def inheritable (h : Hierarchy) (className name descriptor : String) : List Declaration :=
  (h.superinterfaces className).filterMap fun c =>
    ((c.method? name descriptor).filter fun m =>
      !m.accessFlags.isPrivate && !m.accessFlags.isStatic).map (⟨c, ·⟩)

/-- The inheritable declarations that no other one is more specific than. -/
def maximallySpecific (h : Hierarchy) (className name descriptor : String) : List Declaration :=
  let candidates := h.inheritable className name descriptor
  candidates.filter fun d => !candidates.any fun other =>
    other.owner.name ≠ d.owner.name && h.isSubclass other.owner.name d.owner.name

/-- Any maximally specific declaration will do, but one with a body is preferred. -/
def preferredDefault (candidates : List Declaration) : Option Declaration :=
  (candidates.find? (!·.method.accessFlags.isAbstract)).or candidates.head?

/-- The public instance method that interfaces inherit from the root class. -/
def objectMethod? (h : Hierarchy) (name descriptor : String) :
    Except LinkError (Option Declaration) := do
  let object ← h.find objectClass
  return ((object.method? name descriptor).filter fun m =>
    m.accessFlags.isPublic && !m.accessFlags.isStatic).map (⟨object, ·⟩)

/-- The declaration in the referenced class itself or in its superclasses. -/
def findInClass (h : Hierarchy) (referenced : ClassFile) (s : Signature) (isInterface : Bool) :
    Except LinkError (Option Declaration) :=
  if isInterface then
    match referenced.method? s.name s.descriptor with
    | some m => .ok (some ⟨referenced, m⟩)
    | none => h.objectMethod? s.name s.descriptor
  else h.findInSuperclasses s.className s.name s.descriptor

/-- Resolve a reference that appears in class `accessor`; `isInterface` tells that it was made as a
reference to an interface method. -/
def resolveMethod (h : Hierarchy) (accessor : String) (s : Signature) (isInterface : Bool) :
    Except LinkError ResolvedMethod := do
  let referenced ← h.find s.className
  if referenced.isInterface ≠ isInterface then
    throw (.incompatible
      (if isInterface then .notInterface referenced.name else .isInterface referenced.name))
  match if isInterface then none else referenced.polymorphicMethod? s.name with
  | some m => return ⟨s.inClass referenced.name, m.accessFlags, true⟩
  | none =>
    let inClass ← h.findInClass referenced s isInterface
    match inClass.or (preferredDefault (h.maximallySpecific s.className s.name s.descriptor)) with
    | none => throw (.methodNotFound s)
    | some d =>
      if h.isAccessible accessor d then
        return ⟨s.inClass d.owner.name, d.method.accessFlags, false⟩
      else throw (.methodNotAccessible (s.inClass d.owner.name))

end Hierarchy

end SymbolicBytecode

import SymbolicBytecode.Hierarchy.Resolution

/-!
# Method selection

Which method an invocation executes, given the method that its reference resolved to. Virtual and
interface invocations depend on the class of the receiver, special ones on the class that makes
the call; static ones execute the resolved method itself.
-/

namespace SymbolicBytecode

/-- A method selected for execution. -/
structure Implementation where
  signature : Signature
  accessFlags : AccessFlags
  deriving DecidableEq, Repr

def Implementation.isNative (i : Implementation) : Bool := i.accessFlags.isNative

def Implementation.isAbstract (i : Implementation) : Bool := i.accessFlags.isAbstract

def Declaration.implementation (d : Declaration) : Implementation :=
  ⟨d.signature, d.method.accessFlags⟩

namespace Hierarchy

/-- Whether a declaration overrides the resolved method. A package-private method is overridden
only inside its package. -/
def overrides (d : Declaration) (resolved : ResolvedMethod) : Bool :=
  !d.method.accessFlags.isPrivate &&
    (!resolved.accessFlags.isPackagePrivate ||
      d.owner.package = packageOf resolved.signature.className)

/-- What selecting a declaration comes to: it must have a body, and an interface invocation must
find it public. -/
def selected (d : Declaration) (isInterface : Bool) : Except LinkError Implementation :=
  if d.method.accessFlags.isAbstract then .error (.methodAbstract d.signature)
  else if isInterface && !d.method.accessFlags.isPublic then
    .error (.methodNotAccessible d.signature)
  else .ok d.implementation

/-- Selection among the maximally specific superinterface methods: exactly one must have a body. -/
def selectDefault (h : Hierarchy) (className : String) (s : Signature) (isInterface : Bool) :
    Except LinkError Implementation :=
  match (h.maximallySpecific className s.name s.descriptor).filter
      (!·.method.accessFlags.isAbstract) with
  | [d] => selected d isInterface
  | _ :: _ :: _ => .error (.incompatible (.conflictingDefaults s))
  | [] => .error (.methodAbstract (s.inClass className))

/-- The first declaration on a chain that settles a virtual call: a static one is an error, an
overriding one is selected. -/
def selectOnChain (resolved : ResolvedMethod) (isInterface : Bool) :
    List ClassFile → Option (Except LinkError Implementation)
  | [] => none
  | c :: rest =>
    match c.method? resolved.signature.name resolved.signature.descriptor with
    | none => selectOnChain resolved isInterface rest
    | some m =>
      if m.accessFlags.isStatic then
        some (.error (.incompatible (.isStatic (resolved.signature.inClass c.name))))
      else if overrides ⟨c, m⟩ resolved then some (selected ⟨c, m⟩ isInterface)
      else selectOnChain resolved isInterface rest

/-- The declaration of a resolved method in the class it names. -/
def ownDeclaration? (h : Hierarchy) (s : Signature) : Except LinkError (Option Declaration) := do
  let owner ← h.find s.className
  return (owner.method? s.name s.descriptor).map (⟨owner, ·⟩)

/-- The class in which a virtual call looks for its method: arrays inherit all from the root. -/
def receiverClass (receiver : String) : String :=
  match receiver.toList with
  | '[' :: _ => objectClass
  | _ => receiver

/-- The method that a virtual or interface invocation executes on a receiver. -/
def lookupVirtual (h : Hierarchy) (receiver : String) (resolved : ResolvedMethod)
    (isInterface : Bool) : Except LinkError Implementation := do
  let s := resolved.signature
  if isInterface && !h.isSubclass receiver s.className then
    throw (.incompatible (.notImplemented receiver s.className))
  if resolved.isPrivate then
    match ← h.ownDeclaration? s with
    | some d => return d.implementation
    | none => throw (.methodNotFound s)
  else
    let receiver := receiverClass receiver
    let chain ← h.superclassChain receiver
    (selectOnChain resolved isInterface chain).getD (h.selectDefault receiver s isInterface)

/-- The class in which a special invocation starts to look. Calls of superclass methods go through
the direct superclass of the calling class, if that class asks for it. -/
def specialStart (h : Hierarchy) (accessor : String) (s : Signature) :
    Except LinkError ClassFile := do
  let current ← h.find accessor
  let resolvedClass ← h.find s.className
  match current.superName with
  | some superName =>
    if s.name ≠ "<init>" && !resolvedClass.isInterface && current.accessFlags.isSuper
        && s.className ≠ accessor && h.isSubclass accessor s.className
    then h.find superName
    else return resolvedClass
  | none => return resolvedClass

/-- The declaration that a special invocation finds from its starting class on. -/
def specialDeclaration? (h : Hierarchy) (start : ClassFile) (s : Signature) :
    Except LinkError (Option Declaration) :=
  if start.isInterface then
    match start.method? s.name s.descriptor with
    | some m => .ok (some ⟨start, m⟩)
    | none => do
      let object ← h.find objectClass
      let found := (object.method? s.name s.descriptor).filter (·.accessFlags.isPublic)
      return found.map (⟨object, ·⟩)
  else h.findInSuperclasses start.name s.name s.descriptor

/-- The method that a special invocation in class `accessor` executes. -/
def lookupSpecial (h : Hierarchy) (accessor : String) (resolved : ResolvedMethod) :
    Except LinkError Implementation := do
  let s := resolved.signature
  let start ← h.specialStart accessor s
  match ← h.specialDeclaration? start s with
  | some d => selected d false
  | none => h.selectDefault start.name s false

/-- The method that a static invocation executes: the resolved one, which must be static. -/
def lookupStatic (h : Hierarchy) (resolved : ResolvedMethod) : Except LinkError Implementation := do
  match ← h.ownDeclaration? resolved.signature with
  | some d =>
    if d.method.accessFlags.isStatic then return d.implementation
    else throw (.incompatible (.notStatic resolved.signature))
  | none => throw (.methodNotFound resolved.signature)

end Hierarchy

end SymbolicBytecode

import Mathlib
import SymbolicBytecode.Hierarchy.Selection
import SymbolicBytecode.Proofs.Chains

/-!
# Selected methods are declared

Whatever way a call finds its method, the method is declared in a class of the hierarchy, and
looking for it there by its signature finds it again. It has the name and the descriptor that were
asked for.
-/
namespace SymbolicBytecode

namespace Hierarchy

variable {h : Hierarchy}

/-- The declaration is the first of its name and descriptor in a class of the hierarchy. -/
structure Declares (h : Hierarchy) (d : Declaration) : Prop where
  owner : h.get? d.owner.name = some d.owner
  method : d.owner.method? d.method.name d.method.descriptor = some d.method

/-- What the implementation names is declared, with these access flags. -/
def Implements (h : Hierarchy) (i : Implementation) : Prop :=
  ∃ d : Declaration, h.Declares d ∧ i = d.implementation

/-- The declaration has the name and the descriptor that were asked for. -/
structure DeclaresAs (h : Hierarchy) (name descriptor : String) (d : Declaration) : Prop extends
    h.Declares d where
  name_eq : d.method.name = name
  descriptor_eq : d.method.descriptor = descriptor

/-- What the implementation names is declared, and has the same name and descriptor as asked for. -/
def ImplementsAs (h : Hierarchy) (s : Signature) (i : Implementation) : Prop :=
  ∃ d : Declaration, h.DeclaresAs s.name s.descriptor d ∧ i = d.implementation

theorem ImplementsAs.implements {s : Signature} {i : Implementation} (hi : h.ImplementsAs s i) :
    h.Implements i := by
  obtain ⟨d, hd, rfl⟩ := hi
  exact ⟨d, hd.toDeclares, rfl⟩

theorem ImplementsAs.name_eq {s : Signature} {i : Implementation} (hi : h.ImplementsAs s i) :
    i.signature.name = s.name := by
  obtain ⟨d, hd, rfl⟩ := hi
  exact hd.name_eq

theorem ImplementsAs.descriptor_eq {s : Signature} {i : Implementation}
    (hi : h.ImplementsAs s i) : i.signature.descriptor = s.descriptor := by
  obtain ⟨d, hd, rfl⟩ := hi
  exact hd.descriptor_eq

theorem Declares.eq_of_signature {d d' : Declaration} (hd : h.Declares d) (hd' : h.Declares d')
    (hsame : d.signature = d'.signature) : d = d' := by
  obtain ⟨c, m⟩ := d
  obtain ⟨c', m'⟩ := d'
  obtain ⟨hclass, hname, hdescriptor⟩ := Signature.mk.inj hsame
  have howner := hd'.owner
  have hmethod := hd'.method
  dsimp only at hclass hname hdescriptor howner hmethod
  rw [← hclass, hd.owner] at howner
  cases howner
  rw [← hname, ← hdescriptor, hd.method] at hmethod
  cases hmethod
  rfl

theorem declares_of_method? {c : ClassFile} {name descriptor : String} {m : Method}
    (hget : h.get? c.name = some c) (hm : c.method? name descriptor = some m) :
    h.DeclaresAs name descriptor ⟨c, m⟩ := by
  have hfound := List.find?_some hm
  simp only [Bool.and_eq_true, decide_eq_true_eq] at hfound
  obtain ⟨rfl, rfl⟩ := hfound
  exact ⟨⟨hget, hm⟩, rfl, rfl⟩

theorem get?_of_find {name : String} {c : ClassFile} (hfind : h.find name = .ok c) :
    h.get? c.name = some c := by
  have hget := find_ok_iff.1 hfind
  rwa [name_of_get? hget]

theorem declares_of_firstDeclaring {name descriptor : String} {chain : List ClassFile}
    {d : Declaration} (hknown : ∀ c ∈ chain, h.get? c.name = some c)
    (hfirst : firstDeclaring name descriptor chain = some d) :
    h.DeclaresAs name descriptor d := by
  obtain ⟨c, hc, hd⟩ := List.exists_of_findSome?_eq_some hfirst
  obtain ⟨m, hm, rfl⟩ := Option.map_eq_some_iff.1 hd
  exact declares_of_method? (hknown c hc) hm

theorem declares_of_findInSuperclasses {className name descriptor : String} {d : Declaration}
    (hfind : h.findInSuperclasses className name descriptor = .ok (some d)) :
    h.DeclaresAs name descriptor d := by
  obtain ⟨chain, hchain, hfirst⟩ := except_bind_ok_iff.1 hfind
  have hascent := superclassChain_ok_iff.1 hchain
  exact declares_of_firstDeclaring (fun c hc => hascent.get?_of_mem hc) (Except.ok.inj hfirst)

theorem get?_of_mem_superinterfaces {className : String} {c : ClassFile}
    (hc : c ∈ h.superinterfaces className) : h.get? c.name = some c := by
  obtain ⟨name, -, hget⟩ := List.mem_filterMap.1 hc
  obtain ⟨hget, -⟩ := Option.filter_eq_some_iff.1 hget
  rwa [name_of_get? hget]

theorem declares_of_mem_maximallySpecific {className name descriptor : String} {d : Declaration}
    (hd : d ∈ h.maximallySpecific className name descriptor) : h.DeclaresAs name descriptor d := by
  obtain ⟨c, hc, hdeclared⟩ := List.mem_filterMap.1 (List.mem_of_mem_filter hd)
  obtain ⟨m, hm, rfl⟩ := Option.map_eq_some_iff.1 hdeclared
  exact declares_of_method? (get?_of_mem_superinterfaces hc) (Option.filter_eq_some_iff.1 hm).1

theorem selected_ok_iff {d : Declaration} {isInterface : Bool} {i : Implementation} :
    selected d isInterface = .ok i ↔ i = d.implementation ∧ ¬d.method.accessFlags.isAbstract ∧
      (isInterface → d.method.accessFlags.isPublic) := by
  have heq : (.ok d.implementation : Except LinkError Implementation) = .ok i ↔
      i = d.implementation := by rw [Except.ok.injEq, eq_comm]
  unfold selected
  split
  · simp_all
  · split <;> simp_all

theorem selected_ok {d : Declaration} {isInterface : Bool} {i : Implementation}
    (hi : selected d isInterface = .ok i) : i = d.implementation :=
  (selected_ok_iff.1 hi).1

theorem implements_of_selected {s : Signature} {d : Declaration} {isInterface : Bool}
    {i : Implementation} (hd : h.DeclaresAs s.name s.descriptor d)
    (hi : selected d isInterface = .ok i) : h.ImplementsAs s i :=
  ⟨d, hd, selected_ok hi⟩

theorem selectDefault_ok {className : String} {s : Signature} {isInterface : Bool}
    {i : Implementation} (hi : h.selectDefault className s isInterface = .ok i) :
    ∃ d ∈ h.maximallySpecific className s.name s.descriptor, selected d isInterface = .ok i := by
  unfold selectDefault at hi
  split at hi
  · next d hsingle =>
    have hmem : d ∈ (h.maximallySpecific className s.name s.descriptor).filter
        (!·.method.accessFlags.isAbstract) := by simp [hsingle]
    exact ⟨d, List.mem_of_mem_filter hmem, hi⟩
  · cases hi
  · cases hi

theorem implements_of_selectDefault {className : String} {s : Signature} {isInterface : Bool}
    {i : Implementation} (hi : h.selectDefault className s isInterface = .ok i) :
    h.ImplementsAs s i := by
  obtain ⟨d, hd, hi⟩ := selectDefault_ok hi
  exact implements_of_selected (declares_of_mem_maximallySpecific hd) hi

theorem implements_of_selectOnChain {resolved : ResolvedMethod} {isInterface : Bool}
    {chain : List ClassFile} {i : Implementation} (hknown : ∀ c ∈ chain, h.get? c.name = some c)
    (hi : selectOnChain resolved isInterface chain = some (.ok i)) :
    h.ImplementsAs resolved.signature i := by
  induction chain with
  | nil => cases hi
  | cons c rest ih =>
    obtain ⟨hc, hrest⟩ := List.forall_mem_cons.1 hknown
    rw [selectOnChain] at hi
    split at hi
    · exact ih hrest hi
    · next m hm =>
      split at hi
      · cases hi
      · split at hi
        · exact implements_of_selected (declares_of_method? hc hm) (Option.some.inj hi)
        · exact ih hrest hi

theorem declares_of_ownDeclaration? {s : Signature} {d : Declaration}
    (hd : h.ownDeclaration? s = .ok (some d)) : h.DeclaresAs s.name s.descriptor d := by
  obtain ⟨owner, hfind, hd⟩ := except_bind_ok_iff.1 hd
  obtain ⟨m, hm, rfl⟩ := Option.map_eq_some_iff.1 (Except.ok.inj hd)
  exact declares_of_method? (get?_of_find hfind) hm

theorem implements_of_lookupStatic {resolved : ResolvedMethod} {i : Implementation}
    (hi : h.lookupStatic resolved = .ok i) : h.ImplementsAs resolved.signature i := by
  obtain ⟨found, hfound, hi⟩ := except_bind_ok_iff.1 hi
  split at hi
  · next d =>
    split at hi
    · cases hi
      exact ⟨d, declares_of_ownDeclaration? hfound, rfl⟩
    · cases hi
  · cases hi

theorem implements_of_lookupVirtual {receiver : String} {resolved : ResolvedMethod}
    {isInterface : Bool} {i : Implementation}
    (hi : h.lookupVirtual receiver resolved isInterface = .ok i) :
    h.ImplementsAs resolved.signature i := by
  unfold lookupVirtual at hi
  dsimp only at hi
  split at hi
  · cases hi
  split at hi
  · obtain ⟨found, hfound, hi⟩ := except_bind_ok_iff.1 hi
    split at hi
    · next d =>
      cases hi
      exact ⟨d, declares_of_ownDeclaration? hfound, rfl⟩
    · cases hi
  · obtain ⟨chain, hchain, hi⟩ := except_bind_ok_iff.1 hi
    have hascent := superclassChain_ok_iff.1 hchain
    cases hchosen : selectOnChain resolved isInterface chain with
    | none =>
      rw [hchosen] at hi
      exact implements_of_selectDefault hi
    | some result =>
      rw [hchosen, Option.getD_some] at hi
      rw [hi] at hchosen
      exact implements_of_selectOnChain (fun c hc => hascent.get?_of_mem hc) hchosen

theorem declares_of_specialDeclaration? {start : ClassFile} {s : Signature} {d : Declaration}
    (hstart : h.get? start.name = some start)
    (hd : h.specialDeclaration? start s = .ok (some d)) : h.DeclaresAs s.name s.descriptor d := by
  unfold specialDeclaration? at hd
  split at hd
  · split at hd
    · next m hm =>
      cases hd
      exact declares_of_method? hstart hm
    · obtain ⟨object, hfind, hd⟩ := except_bind_ok_iff.1 hd
      obtain ⟨m, hm, rfl⟩ := Option.map_eq_some_iff.1 (Except.ok.inj hd)
      exact declares_of_method? (get?_of_find hfind) (Option.filter_eq_some_iff.1 hm).1
  · exact declares_of_findInSuperclasses hd

theorem get?_of_specialStart {accessor : String} {s : Signature} {start : ClassFile}
    (hstart : h.specialStart accessor s = .ok start) : h.get? start.name = some start := by
  obtain ⟨current, hcurrent, hstart⟩ := except_bind_ok_iff.1 hstart
  obtain ⟨resolvedClass, hresolved, hstart⟩ := except_bind_ok_iff.1 hstart
  split at hstart
  · split at hstart
    · exact get?_of_find hstart
    · cases hstart
      exact get?_of_find hresolved
  · cases hstart
    exact get?_of_find hresolved

theorem implements_of_lookupSpecial {accessor : String} {resolved : ResolvedMethod}
    {i : Implementation} (hi : h.lookupSpecial accessor resolved = .ok i) :
    h.ImplementsAs resolved.signature i := by
  obtain ⟨start, hstart, hi⟩ := except_bind_ok_iff.1 hi
  obtain ⟨found, hfound, hi⟩ := except_bind_ok_iff.1 hi
  split at hi
  · next d =>
    have hknown := get?_of_specialStart hstart
    exact implements_of_selected (declares_of_specialDeclaration? hknown hfound) hi
  · exact implements_of_selectDefault hi

theorem declares_of_objectMethod? {name descriptor : String} {d : Declaration}
    (hd : h.objectMethod? name descriptor = .ok (some d)) : h.DeclaresAs name descriptor d := by
  obtain ⟨object, hfind, hd⟩ := except_bind_ok_iff.1 hd
  obtain ⟨m, hm, rfl⟩ := Option.map_eq_some_iff.1 (Except.ok.inj hd)
  exact declares_of_method? (get?_of_find hfind) (Option.filter_eq_some_iff.1 hm).1

theorem declares_of_findInClass {referenced : ClassFile} {s : Signature} {isInterface : Bool}
    {d : Declaration} (hknown : h.get? referenced.name = some referenced)
    (hd : h.findInClass referenced s isInterface = .ok (some d)) :
    h.DeclaresAs s.name s.descriptor d := by
  unfold findInClass at hd
  split at hd
  · split at hd
    · next m hm =>
      cases hd
      exact declares_of_method? hknown hm
    · exact declares_of_objectMethod? hd
  · exact declares_of_findInSuperclasses hd

theorem mem_of_preferredDefault {candidates : List Declaration} {d : Declaration}
    (hd : preferredDefault candidates = some d) : d ∈ candidates := by
  rcases Option.or_eq_some_iff.1 hd with hfind | ⟨-, hhead⟩
  · exact List.mem_of_find?_eq_some hfind
  · exact List.mem_of_mem_head? hhead

/-- The class that the resolved method names declares it, with these access flags. -/
structure Resolved (h : Hierarchy) (m : ResolvedMethod) (d : Declaration) : Prop extends
    h.DeclaresAs m.signature.name m.signature.descriptor d where
  owner_eq : d.owner.name = m.signature.className
  accessFlags_eq : d.method.accessFlags = m.accessFlags

theorem Resolved.get?_owner {m : ResolvedMethod} {d : Declaration} (hd : h.Resolved m d) :
    h.get? m.signature.className = some d.owner := by
  rw [← hd.owner_eq]
  exact hd.owner

theorem Resolved.method?_eq {m : ResolvedMethod} {d : Declaration} (hd : h.Resolved m d) :
    d.owner.method? m.signature.name m.signature.descriptor = some d.method := by
  rw [← hd.name_eq, ← hd.descriptor_eq]
  exact hd.method

/-- A method that cannot be overridden is selected as it was resolved. -/
theorem Resolved.ownDeclaration? {m : ResolvedMethod} {d : Declaration} (hd : h.Resolved m d) :
    h.ownDeclaration? m.signature = .ok (some d) := by
  rw [Hierarchy.ownDeclaration?, find_ok_iff.2 hd.get?_owner]
  simp [bind, Except.bind, pure, Except.pure, hd.method?_eq]

/-- How a reference is resolved: to the signature-polymorphic method of its name, or by a
declaration in the class or above it, or else by one in a superinterface. -/
theorem resolveMethod_cases {accessor : String} {s : Signature} {isInterface : Bool}
    {m : ResolvedMethod} (hm : h.resolveMethod accessor s isInterface = .ok m) :
    ∃ referenced, h.get? s.className = some referenced ∧ referenced.isInterface = isInterface ∧
      ((isInterface = false ∧ ∃ handle, referenced.polymorphicMethod? s.name = some handle ∧
          m = ⟨s.inClass referenced.name, handle.accessFlags, true⟩) ∨
        ∃ inClass d, h.findInClass referenced s isInterface = .ok inClass ∧
          inClass.or (preferredDefault (h.maximallySpecific s.className s.name s.descriptor)) =
            some d ∧
          h.isAccessible accessor d ∧
          m = ⟨s.inClass d.owner.name, d.method.accessFlags, false⟩) := by
  obtain ⟨referenced, hreferenced, hm⟩ := except_bind_ok_iff.1 hm
  dsimp only at hm
  by_cases hkind : referenced.isInterface ≠ isInterface
  · rw [if_pos hkind] at hm
    cases hm
  rw [if_neg hkind] at hm
  refine ⟨referenced, find_ok_iff.1 hreferenced, not_not.1 hkind, ?_⟩
  split at hm
  · next handle hhandle =>
    cases hm
    simp only [Option.ite_none_left_eq_some, Bool.not_eq_true] at hhandle
    exact .inl ⟨hhandle.1, handle, hhandle.2, rfl⟩
  obtain ⟨inClass, hinClass, hm⟩ := except_bind_ok_iff.1 hm
  split at hm
  · cases hm
  next d hfound =>
  split at hm
  · next haccessible =>
    cases hm
    exact .inr ⟨inClass, d, hinClass, hfound, haccessible, rfl⟩
  · cases hm

/-- A reference is resolved to a method of its own name and descriptor. -/
theorem resolveMethod_signature {accessor : String} {s : Signature} {isInterface : Bool}
    {m : ResolvedMethod} (hm : h.resolveMethod accessor s isInterface = .ok m) :
    ∃ className, m.signature = s.inClass className := by
  obtain ⟨referenced, -, -, ⟨-, handle, -, rfl⟩ | ⟨inClass, d, -, -, -, rfl⟩⟩ :=
    resolveMethod_cases hm
  · exact ⟨referenced.name, rfl⟩
  · exact ⟨d.owner.name, rfl⟩

/-- Interfaces have no signature-polymorphic methods. -/
theorem resolveMethod_polymorphic {accessor : String} {s : Signature} {isInterface : Bool}
    {m : ResolvedMethod} (hm : h.resolveMethod accessor s isInterface = .ok m)
    (hpolymorphic : m.polymorphic) : isInterface = false := by
  obtain ⟨referenced, -, -, ⟨hclass, -⟩ | ⟨inClass, d, -, -, -, rfl⟩⟩ := resolveMethod_cases hm
  · exact hclass
  · cases hpolymorphic

theorem resolveMethod_ok {accessor : String} {s : Signature} {isInterface : Bool}
    {m : ResolvedMethod} (hm : h.resolveMethod accessor s isInterface = .ok m)
    (hplain : ¬m.polymorphic) :
    ∃ referenced inClass d, h.get? s.className = some referenced ∧
      referenced.isInterface = isInterface ∧ h.findInClass referenced s isInterface = .ok inClass ∧
      inClass.or (preferredDefault (h.maximallySpecific s.className s.name s.descriptor)) =
        some d ∧
      h.isAccessible accessor d ∧ m = ⟨s.inClass d.owner.name, d.method.accessFlags, false⟩ := by
  obtain ⟨referenced, hget, hkind, ⟨-, handle, -, rfl⟩ | ⟨inClass, d, hfound⟩⟩ :=
    resolveMethod_cases hm
  · simp at hplain
  · exact ⟨referenced, inClass, d, hget, hkind, hfound⟩

/-- A reference is resolved to a declared method, unless to a signature-polymorphic one. -/
theorem resolveMethod_declares {accessor : String} {s : Signature} {isInterface : Bool}
    {m : ResolvedMethod} (hm : h.resolveMethod accessor s isInterface = .ok m)
    (hplain : ¬m.polymorphic) : ∃ d, h.Resolved m d := by
  obtain ⟨referenced, inClass, d, hget, -, hinClass, hfound, -, rfl⟩ := resolveMethod_ok hm hplain
  have hknown : h.get? referenced.name = some referenced := by rwa [name_of_get? hget]
  have hd : h.DeclaresAs s.name s.descriptor d := by
    rcases Option.or_eq_some_iff.1 hfound with rfl | ⟨-, hdefault⟩
    · exact declares_of_findInClass hknown hinClass
    · exact declares_of_mem_maximallySpecific (mem_of_preferredDefault hdefault)
  exact ⟨d, hd, rfl, rfl⟩

end Hierarchy

end SymbolicBytecode

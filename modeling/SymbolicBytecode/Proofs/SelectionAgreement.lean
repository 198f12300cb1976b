import Mathlib
import SymbolicBytecode.Proofs.MethodResolution
import SymbolicBytecode.Proofs.Subtyping

/-!
# Resolution and selection agree

Called on an object of the very class that the reference names, a virtual call executes the method
to which the reference was resolved, although the two are found by different searches. It fails if
that method has no body, or if several superinterfaces have one to offer. No other method is ever
executed.
-/
namespace SymbolicBytecode.Hierarchy

variable {h : Hierarchy} {accessor : String} {s : Signature} {r : ResolvedMethod}
  {d : Declaration} {chain : List ClassFile}

/-- A superinterface has a body to offer: no other interface that passes a declaration on is below
it. -/
structure Offers (h : Hierarchy) (s : Signature) (d : Declaration) : Prop extends
    h.Inheritable s d where
  body : ¬d.method.accessFlags.isAbstract
  lowest : ∀ e, h.Inheritable s e → e.owner.name ≠ d.owner.name →
    ¬h.Below e.owner.name d.owner.name

/-- Several superinterfaces have a body to offer. -/
def Conflict (h : Hierarchy) (s : Signature) : Prop :=
  ∃ d e, h.Offers s d ∧ h.Offers s e ∧ d ≠ e

/-- Of a class that is not an interface itself, the search finds all bodies on offer. -/
theorem mem_bodies_iff (hclass : ∀ c, h.get? s.className = some c → ¬c.isInterface) :
    d ∈ (h.maximallySpecific s.className s.name s.descriptor).filter
      (!·.method.accessFlags.isAbstract) ↔ h.Offers s d := by
  have hcandidate (e : Declaration) :
      e ∈ h.inheritable s.className s.name s.descriptor ↔ h.Inheritable s e := by
    rw [mem_inheritable_iff, and_iff_left_iff_imp]
    intro he heq
    exact hclass e.owner (heq ▸ he.owner.known) he.owner.isInterface
  rw [List.mem_filter, mem_maximallySpecific_iff]
  simp only [hcandidate, isSubclass_iff_below]
  constructor
  · rintro ⟨⟨hd, hlowest⟩, hbody⟩
    exact ⟨hd, by simpa using hbody, hlowest⟩
  · rintro ⟨hd, hbody, hlowest⟩
    exact ⟨⟨hd, hlowest⟩, by simpa using hbody⟩

/-- What selection makes of the superinterface methods one of which was resolved. -/
theorem selectDefault_preferred (hclass : ∀ c, h.get? s.className = some c → ¬c.isInterface)
    (hd : preferredDefault (h.maximallySpecific s.className s.name s.descriptor) = some d)
    {t : Signature} (hname : t.name = s.name) (hdescriptor : t.descriptor = s.descriptor) :
    d.method.accessFlags.isAbstract ∧ ¬h.Conflict s ∧
        h.selectDefault s.className t false = .error (.methodAbstract (t.inClass s.className)) ∨
      ¬d.method.accessFlags.isAbstract ∧ ¬h.Conflict s ∧
        h.selectDefault s.className t false = .ok d.implementation ∨
      ¬d.method.accessFlags.isAbstract ∧ h.Conflict s ∧
        h.selectDefault s.className t false = .error (.incompatible (.conflictingDefaults t)) := by
  have hmem := mem_of_preferredDefault hd
  have hnodup := (nodup_maximallySpecific h s.className s.name s.descriptor).filter
    (!·.method.accessFlags.isAbstract)
  have hoffers (e : Declaration) := mem_bodies_iff (d := e) hclass
  have hbody : ¬d.method.accessFlags.isAbstract → h.Offers s d := fun hbody =>
    (hoffers d).1 (List.mem_filter.2 ⟨hmem, by simpa using hbody⟩)
  rw [preferredDefault, ← List.head?_filter] at hd
  rw [selectDefault, hname, hdescriptor]
  unfold Conflict
  cases hbodies : (h.maximallySpecific s.className s.name s.descriptor).filter
      (!·.method.accessFlags.isAbstract) with
  | nil =>
    rw [hbodies] at hoffers
    refine .inl ⟨?_, ?_, rfl⟩
    · by_contra hno
      simpa using (hoffers d).2 (hbody hno)
    · rintro ⟨e, -, he, -⟩
      simpa using (hoffers e).2 he
  | cons first rest =>
    rw [hbodies] at hd hnodup hoffers
    obtain rfl : first = d := by simpa using hd
    have hfirst := (hoffers first).1 List.mem_cons_self
    cases rest with
    | nil =>
      refine .inr (.inl ⟨hfirst.body, ?_, ?_⟩)
      · rintro ⟨e, e', he, he', hne⟩
        refine hne ?_
        have hsingle := List.mem_singleton.1 ((hoffers e).2 he)
        exact hsingle.trans (List.mem_singleton.1 ((hoffers e').2 he')).symm
      · simp [selected_false, Declaration.outcome, hfirst.body]
    | cons second rest =>
      have hsecond := (hoffers second).1 (by simp)
      have hne : first ≠ second := by
        rintro rfl
        simp at hnodup
      exact .inr (.inr ⟨hfirst.body, ⟨first, second, hfirst, hsecond, hne⟩, rfl⟩)

theorem Resolved.signature_eq (hd : h.Resolved r d) : d.signature = r.signature := by
  rw [Declaration.signature, hd.owner_eq, hd.name_eq, hd.descriptor_eq]

theorem Resolved.implementation_eq (hd : h.Resolved r d) :
    d.implementation = ⟨r.signature, r.accessFlags⟩ := by
  rw [Declaration.implementation, hd.signature_eq, hd.accessFlags_eq]

/-- A private method cannot be overridden and is executed as it was resolved. -/
theorem Resolved.lookupVirtual_private (hd : h.Resolved r d) (hprivate : r.isPrivate)
    (receiver : String) :
    h.lookupVirtual receiver r false = .ok ⟨r.signature, r.accessFlags⟩ := by
  rw [← hd.implementation_eq]
  simp only [lookupVirtual, Bool.false_and, Bool.false_eq_true, if_false, hprivate, if_true,
    hd.ownDeclaration?]
  rfl

/-- The first declaration on the chain of the class is the one that selection comes to first. -/
theorem Resolved.lookupVirtual_class (hd : h.Resolved r d) (hname : ¬IsArrayName s.className)
    (hsignature : r.signature = s.inClass d.owner.name) (hinstance : ¬r.isStatic)
    (hprivate : ¬r.isPrivate) (ha : Ascent h s.className chain)
    (hfirst : FirstOn chain s.name s.descriptor (fun _ => True) d) :
    h.lookupVirtual s.className r false = if r.accessFlags.isAbstract
      then .error (.methodAbstract r.signature) else .ok ⟨r.signature, r.accessFlags⟩ := by
  have hsettles : FirstOn chain r.signature.name r.signature.descriptor (Settles r) d := by
    rw [hsignature]
    exact hfirst.imp (.inr (hd.overrides_self hprivate)) (by simp)
  have hflags : ¬d.method.accessFlags.isStatic := by rwa [hd.accessFlags_eq]
  rw [lookupVirtual_of_ascent hname hprivate ha, selectOnChain_first hsettles, Option.getD_some,
    if_neg hflags, selected_false, Declaration.outcome, hd.accessFlags_eq, hd.signature_eq,
    hd.implementation_eq]

theorem not_isPrivate_of_preferredDefault {className name descriptor : String}
    (hd : preferredDefault (h.maximallySpecific className name descriptor) = some d) :
    ¬d.method.accessFlags.isPrivate := by
  have hmem := mem_maximallySpecific_iff.1 (mem_of_preferredDefault hd)
  exact (mem_inheritable_iff (s := ⟨className, name, descriptor⟩).1 hmem.1).1.notPrivate

/-- If no class on the chain declares the method, selection is among the same superinterface methods
as resolution. -/
theorem Resolved.lookupVirtual_inherited (hd : h.Resolved r d) (hname : ¬IsArrayName s.className)
    (hclass : ∀ c, h.get? s.className = some c → ¬c.isInterface)
    (hsignature : r.signature = s.inClass d.owner.name) (hprivate : ¬r.isPrivate)
    (ha : Ascent h s.className chain) (hnone : ∀ c ∈ chain, c.method? s.name s.descriptor = none)
    (hdefault : preferredDefault (h.maximallySpecific s.className s.name s.descriptor) = some d) :
    r.accessFlags.isAbstract ∧ ¬h.Conflict s ∧
        h.lookupVirtual s.className r false =
          .error (.methodAbstract (r.signature.inClass s.className)) ∨
      ¬r.accessFlags.isAbstract ∧ ¬h.Conflict s ∧
        h.lookupVirtual s.className r false = .ok ⟨r.signature, r.accessFlags⟩ ∨
      ¬r.accessFlags.isAbstract ∧ h.Conflict s ∧
        h.lookupVirtual s.className r false =
          .error (.incompatible (.conflictingDefaults r.signature)) := by
  have hmethod : r.signature.name = s.name ∧ r.signature.descriptor = s.descriptor := by
    rw [hsignature]
    exact ⟨rfl, rfl⟩
  rw [← hmethod.1, ← hmethod.2] at hnone
  rw [lookupVirtual_of_ascent hname hprivate ha, selectOnChain_undeclared hnone, Option.getD_none,
    ← hd.implementation_eq, ← hd.accessFlags_eq]
  exact selectDefault_preferred hclass hdefault hmethod.1 hmethod.2

/-- **Resolution and selection agree.** On an object of the class that the reference names, a call
executes the resolved method itself. It fails with an abstract method if and only if that method
could be overridden and is abstract, and with incompatible classes if and only if no superclass
declares the method and several superinterfaces have a body to offer, each in an interface that no
other interface with a declaration of the method is below. -/
theorem lookupVirtual_agrees (hname : ¬IsArrayName s.className)
    (hr : h.resolveMethod accessor s false = .ok r) (hinstance : ¬r.isStatic)
    (hplain : ¬r.polymorphic) :
    (h.lookupVirtual s.className r false = .ok ⟨r.signature, r.accessFlags⟩ ∨
      (∃ m, h.lookupVirtual s.className r false = .error (.methodAbstract m)) ∨
      ∃ change, h.lookupVirtual s.className r false = .error (.incompatible change)) ∧
    ((∃ m, h.lookupVirtual s.className r false = .error (.methodAbstract m)) ↔
      ¬r.isPrivate ∧ r.accessFlags.isAbstract) ∧
    ((∃ change, h.lookupVirtual s.className r false = .error (.incompatible change)) ↔
      (∀ d, ¬h.Provides s false d) ∧ h.Conflict s) := by
  have hclass : ∀ c, h.get? s.className = some c → ¬c.isInterface := by
    obtain ⟨referenced, _, _, hget, hkind, -⟩ := resolveMethod_ok hr hplain
    intro c hc
    cases hget.symm.trans hc
    simp [hkind]
  obtain ⟨chain, d, ha, hd, hsignature, hfirst | ⟨hnone, hdefault⟩⟩ := resolveMethod_class hr hplain
  · have hprovides : ¬∀ d, ¬h.Provides s false d := fun hnone =>
      hnone d (.superclass (superclassChain_ok_iff.2 ha) hfirst.mem hfirst.declared)
    by_cases hprivate : r.isPrivate
    · rw [hd.lookupVirtual_private hprivate]
      simp [hprivate, hprovides]
    · rw [hd.lookupVirtual_class hname hsignature hinstance hprivate ha hfirst]
      by_cases habstract : r.accessFlags.isAbstract <;> simp [habstract, hprivate, hprovides]
  · have hprovides : ∀ d, ¬h.Provides s false d := (not_provides_iff ha).2 hnone
    have hprivate : ¬r.isPrivate := by
      rw [ResolvedMethod.isPrivate, ← hd.accessFlags_eq]
      exact not_isPrivate_of_preferredDefault hdefault
    rcases hd.lookupVirtual_inherited hname hclass hsignature hprivate ha hnone hdefault with
      ⟨habstract, hclear, hanswer⟩ | ⟨hbody, hclear, hanswer⟩ | ⟨hbody, hclash, hanswer⟩
    · simp [hanswer, habstract, hprivate, hclear]
    · simp [hanswer, hbody, hclear]
    · simp [hanswer, hbody, hprovides, hclash]

/-- The class `p/C` inherits a method from two interfaces. The second of them extends the given
ones. -/
def clashingClasses (interfaces : List String) : Hierarchy :=
  [Bootstrap.object.build, idleInterface "p/I" [] 0x0001, idleInterface "p/K" interfaces 0x0001,
    bareClass "p/C" objectClass ["p/I", "p/K"]].foldl add .empty

/-- A call of the method cannot choose between the two, though the reference was resolved. There is
no conflict if one of the interfaces extends the other. -/
theorem lookupVirtual_clashing :
    ((clashingClasses []).resolveMethod "p/C" ⟨"p/C", "m", "()V"⟩ false =
        .ok ⟨⟨"p/I", "m", "()V"⟩, 0x0001, false⟩ ∧
      (clashingClasses []).lookupVirtual "p/C" ⟨⟨"p/I", "m", "()V"⟩, 0x0001, false⟩ false =
        .error (.incompatible (.conflictingDefaults ⟨"p/I", "m", "()V"⟩)) ∧
      (∀ d, ¬(clashingClasses []).Provides ⟨"p/C", "m", "()V"⟩ false d) ∧
      (clashingClasses []).Conflict ⟨"p/C", "m", "()V"⟩) ∧
    (clashingClasses ["p/I"]).lookupVirtual "p/C" ⟨⟨"p/K", "m", "()V"⟩, 0x0001, false⟩ false =
        .ok ⟨⟨"p/K", "m", "()V"⟩, 0x0001⟩ ∧
      ¬(clashingClasses ["p/I"]).Conflict ⟨"p/C", "m", "()V"⟩ := by
  constructor
  · have hr : (clashingClasses []).resolveMethod "p/C" ⟨"p/C", "m", "()V"⟩ false =
        .ok ⟨⟨"p/I", "m", "()V"⟩, 0x0001, false⟩ := by decide +kernel
    have hlookup : (clashingClasses []).lookupVirtual "p/C"
        ⟨⟨"p/I", "m", "()V"⟩, 0x0001, false⟩ false =
          .error (.incompatible (.conflictingDefaults ⟨"p/I", "m", "()V"⟩)) := by decide +kernel
    exact ⟨hr, hlookup,
      (lookupVirtual_agrees (by decide +kernel) hr (by decide) (by simp)).2.2.1 ⟨_, hlookup⟩⟩
  · have hr : (clashingClasses ["p/I"]).resolveMethod "p/C" ⟨"p/C", "m", "()V"⟩ false =
        .ok ⟨⟨"p/K", "m", "()V"⟩, 0x0001, false⟩ := by decide +kernel
    have hlookup : (clashingClasses ["p/I"]).lookupVirtual "p/C"
        ⟨⟨"p/K", "m", "()V"⟩, 0x0001, false⟩ false = .ok ⟨⟨"p/K", "m", "()V"⟩, 0x0001⟩ := by
      decide +kernel
    have hprovides : ∀ d, ¬(clashingClasses ["p/I"]).Provides ⟨"p/C", "m", "()V"⟩ false d := by
      have hchain : (clashingClasses ["p/I"]).superclassChain "p/C" =
          .ok [bareClass "p/C" objectClass ["p/I", "p/K"], Bootstrap.object.build] := by
        decide +kernel
      exact (not_provides_iff (superclassChain_ok_iff.1 hchain)).2 (by decide +kernel)
    refine ⟨hlookup, fun hconflict => ?_⟩
    obtain ⟨change, herror⟩ := (lookupVirtual_agrees (by decide +kernel) hr (by decide)
      (by simp)).2.2.2 ⟨hprovides, hconflict⟩
    cases hlookup.symm.trans herror

end SymbolicBytecode.Hierarchy

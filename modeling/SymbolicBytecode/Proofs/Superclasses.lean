import Mathlib
import SymbolicBytecode.ClassFile.Outline
import SymbolicBytecode.Hierarchy.Bootstrap
import SymbolicBytecode.Proofs.Selection
import SymbolicBytecode.Proofs.Supertypes

/-!
# Declarations among the superclasses

Which classes are above a class, and which declaration of a method comes first on the way up.
Resolution, virtual selection and special calls all take the first declaration on a chain that has
some property; they differ in the property and in the class at which the chain begins.
-/
namespace SymbolicBytecode

/-- What a call comes to that selects a method: the method, unless it has no body. -/
def Declaration.outcome (d : Declaration) : Except LinkError Implementation :=
  if d.method.accessFlags.isAbstract then .error (.methodAbstract d.signature)
  else .ok d.implementation

namespace Hierarchy

open Relation (ReflTransGen TransGen)

variable {h : Hierarchy} {name : String} {chain : List ClassFile}

/-- A known class names the other one as its superclass. -/
def HasSuperclass (h : Hierarchy) (name superName : String) : Prop :=
  ∃ c, h.get? name = some c ∧ c.superName = some superName

theorem hasSuperclass_iff {c : ClassFile} {superName : String} (hget : h.get? name = some c) :
    h.HasSuperclass name superName ↔ c.superName = some superName := by
  simp [HasSuperclass, hget]

namespace Ascent

theorem exists_get? (ha : Ascent h name chain) : ∃ c, h.get? name = some c := by
  cases ha with
  | root hget => exact ⟨_, hget⟩
  | step hget => exact ⟨_, hget⟩

/-- The classes on a chain are the known ones that superclasses lead to. -/
theorem mem_iff (ha : Ascent h name chain) {c : ClassFile} :
    c ∈ chain ↔ h.get? c.name = some c ∧ ReflTransGen h.HasSuperclass name c.name := by
  induction ha with
  | @root name d hget hsuper =>
    rw [List.mem_singleton]
    constructor
    · rintro rfl
      rw [name_of_get? hget]
      exact ⟨hget, .refl⟩
    · rintro ⟨hc, hsteps⟩
      rcases hsteps.cases_head with heq | ⟨next, hnext, -⟩
      · rw [← heq, hget] at hc
        exact (Option.some.inj hc).symm
      · simp [hasSuperclass_iff hget, hsuper] at hnext
  | @step name superName d chain hget hsuper rest ih =>
    rw [List.mem_cons, ih]
    constructor
    · rintro (rfl | ⟨hc, hsteps⟩)
      · rw [name_of_get? hget]
        exact ⟨hget, .refl⟩
      · exact ⟨hc, .head ((hasSuperclass_iff hget).2 hsuper) hsteps⟩
    · rintro ⟨hc, hsteps⟩
      rcases hsteps.cases_head with heq | ⟨next, hnext, hsteps⟩
      · rw [← heq, hget] at hc
        exact .inl (Option.some.inj hc).symm
      · rw [hasSuperclass_iff hget, hsuper] at hnext
        cases hnext
        exact .inr ⟨hc, hsteps⟩

/-- Above the first class of a chain are the others. -/
theorem mem_tail_iff {first c : ClassFile} {rest : List ClassFile}
    (ha : Ascent h name (first :: rest)) :
    c ∈ rest ↔ h.get? c.name = some c ∧ TransGen h.HasSuperclass name c.name := by
  rw [Relation.TransGen.head'_iff]
  cases ha with
  | root hget hsuper => simp [hasSuperclass_iff hget, hsuper]
  | step hget hsuper rest => simp [hasSuperclass_iff hget, hsuper, rest.mem_iff]

/-- A class has a chain if one of its superclasses has. -/
theorem of_hasSuperclass {low : String} (ha : Ascent h name chain)
    (hsteps : ReflTransGen h.HasSuperclass low name) :
    ∃ before, Ascent h low (before ++ chain) := by
  induction hsteps using ReflTransGen.head_induction_on with
  | refl => exact ⟨[], ha⟩
  | head hstep _ ih =>
    obtain ⟨before, hascent⟩ := ih
    obtain ⟨c, hget, hsuper⟩ := hstep
    exact ⟨c :: before, .step hget hsuper hascent⟩

end Ascent

/-- Of the declarations of a method on a chain, this is the first one that has a property. -/
structure FirstOn (chain : List ClassFile) (name descriptor : String) (p : Declaration → Prop)
    (d : Declaration) : Prop where
  holds : p d
  declared : d.owner.method? name descriptor = some d.method
  first : ∃ before after, chain = before ++ d.owner :: after ∧
    ∀ c ∈ before, ∀ m, c.method? name descriptor = some m → ¬p ⟨c, m⟩

namespace FirstOn

variable {descriptor : String} {p q : Declaration → Prop} {d e : Declaration}

theorem mem (hd : FirstOn chain name descriptor p d) : d.owner ∈ chain := by
  obtain ⟨before, after, rfl, -⟩ := hd.first
  simp

theorem declares {start : String} (hd : FirstOn chain name descriptor p d)
    (ha : Ascent h start chain) : h.DeclaresAs name descriptor d :=
  declares_of_method? (ha.get?_of_mem hd.mem) hd.declared

/-- It stays the first one under a property that fewer of the earlier declarations have. -/
theorem imp (hd : FirstOn chain name descriptor p d) (hq : q d)
    (himp : ∀ c ∈ chain, ∀ m, c.method? name descriptor = some m → q ⟨c, m⟩ → p ⟨c, m⟩) :
    FirstOn chain name descriptor q d := by
  obtain ⟨before, after, rfl, hbefore⟩ := hd.first
  refine ⟨hq, hd.declared, before, after, rfl, fun c hc m hm hcm => ?_⟩
  exact hbefore c hc m hm (himp c (List.mem_append_left _ hc) m hm hcm)

theorem unique (hd : FirstOn chain name descriptor p d) (he : FirstOn chain name descriptor p e) :
    d = e := by
  obtain ⟨before, after, rfl, hbefore⟩ := hd.first
  obtain ⟨before', after', hsplit, hbefore'⟩ := he.first
  -- Neither can come before the other, because both have the property.
  have howner : d.owner = e.owner := by
    rcases List.append_eq_append_iff.1 hsplit with ⟨l, rfl, hl⟩ | ⟨l, rfl, hl⟩
    · cases l with
      | nil => exact (List.cons.inj hl).1
      | cons c l =>
        obtain rfl := (List.cons.inj hl).1
        exact absurd hd.holds (hbefore' _ (by simp) _ hd.declared)
    · cases l with
      | nil => exact (List.cons.inj hl).1.symm
      | cons c l =>
        obtain rfl := (List.cons.inj hl).1
        exact absurd he.holds (hbefore _ (by simp) _ he.declared)
  obtain ⟨c, m⟩ := d
  obtain ⟨c', m'⟩ := e
  obtain rfl : c = c' := howner
  obtain rfl : m = m' := Option.some.inj (hd.declared.symm.trans he.declared)
  rfl

theorem append (hd : FirstOn chain name descriptor p d) (above : List ClassFile) :
    FirstOn (chain ++ above) name descriptor p d := by
  obtain ⟨before, after, rfl, hbefore⟩ := hd.first
  exact ⟨hd.holds, hd.declared, before, after ++ above, by simp, hbefore⟩

theorem cons (hd : FirstOn chain name descriptor p d) {c : ClassFile}
    (hc : ∀ m, c.method? name descriptor = some m → ¬p ⟨c, m⟩) :
    FirstOn (c :: chain) name descriptor p d := by
  obtain ⟨before, after, rfl, hbefore⟩ := hd.first
  exact ⟨hd.holds, hd.declared, c :: before, after, rfl, List.forall_mem_cons.2 ⟨hc, hbefore⟩⟩

/-- If some declaration on a chain has the property, there is a first one. -/
theorem exists_of_mem (hmem : d.owner ∈ chain)
    (hdeclared : d.owner.method? name descriptor = some d.method) (hd : p d) :
    ∃ e, FirstOn chain name descriptor p e := by
  induction chain with
  | nil => simp at hmem
  | cons c chain ih =>
    by_cases hc : ∃ m, c.method? name descriptor = some m ∧ p ⟨c, m⟩
    · obtain ⟨m, hm, hcm⟩ := hc
      exact ⟨⟨c, m⟩, hcm, hm, [], chain, rfl, by simp⟩
    · have hskip : ∀ m, c.method? name descriptor = some m → ¬p ⟨c, m⟩ :=
        fun m hm hcm => hc ⟨m, hm, hcm⟩
      rcases List.mem_cons.1 hmem with rfl | hmem
      · exact absurd hd (hskip _ hdeclared)
      · obtain ⟨e, he⟩ := ih hmem
        exact ⟨e, he.cons hskip⟩

/-- Some declaration on the chain is the first with the property, or there is none at all. -/
theorem exists_or_forall_not (chain : List ClassFile) (name descriptor : String)
    (p : Declaration → Prop) :
    (∃ d, FirstOn chain name descriptor p d) ∨
      ∀ c ∈ chain, ∀ m, c.method? name descriptor = some m → ¬p ⟨c, m⟩ := by
  rw [or_iff_not_imp_left]
  intro hnone c hc m hm hp
  exact hnone (exists_of_mem (d := ⟨c, m⟩) hc hm hp)

end FirstOn

theorem firstDeclaring_eq_none_iff {descriptor : String} :
    firstDeclaring name descriptor chain = none ↔
      ∀ c ∈ chain, c.method? name descriptor = none := by
  simp [firstDeclaring]

/-- The first class that declares a method at all. -/
theorem firstDeclaring_eq_some_iff {descriptor : String} {d : Declaration} :
    firstDeclaring name descriptor chain = some d ↔
      FirstOn chain name descriptor (fun _ => True) d := by
  rw [firstDeclaring, List.findSome?_eq_some_iff]
  constructor
  · rintro ⟨before, c, after, rfl, hc, hbefore⟩
    obtain ⟨m, hm, rfl⟩ := Option.map_eq_some_iff.1 hc
    refine ⟨trivial, hm, before, after, rfl, fun b hb m hm => ?_⟩
    simp [Option.map_eq_none_iff.1 (hbefore b hb)] at hm
  · rintro ⟨-, hdeclared, before, after, rfl, hbefore⟩
    refine ⟨before, d.owner, after, rfl, by simp [hdeclared], fun b hb => ?_⟩
    rw [Option.map_eq_none_iff, Option.eq_none_iff_forall_not_mem]
    exact fun m hm => hbefore b hb m hm trivial

theorem findInSuperclasses_of_ascent (ha : Ascent h name chain) (method descriptor : String) :
    h.findInSuperclasses name method descriptor = .ok (firstDeclaring method descriptor chain) := by
  rw [findInSuperclasses, superclassChain_ok_iff.2 ha]
  rfl

/-- How a reference to the method of a class is resolved: by the first declaration on the chain of
the class, or else by one of its superinterfaces. -/
theorem resolveMethod_class {accessor : String} {s : Signature} {r : ResolvedMethod}
    (hr : h.resolveMethod accessor s false = .ok r) (hplain : ¬r.polymorphic) :
    ∃ chain d, Ascent h s.className chain ∧ h.Resolved r d ∧
      r.signature = s.inClass d.owner.name ∧
      (FirstOn chain s.name s.descriptor (fun _ => True) d ∨
        (∀ c ∈ chain, c.method? s.name s.descriptor = none) ∧
        preferredDefault (h.maximallySpecific s.className s.name s.descriptor) = some d) := by
  obtain ⟨referenced, inClass, d, -, -, hinClass, hfound, -, rfl⟩ := resolveMethod_ok hr hplain
  obtain ⟨chain, hchain, hfirst⟩ := except_bind_ok_iff.1 hinClass
  have ha := superclassChain_ok_iff.1 hchain
  obtain rfl := Except.ok.inj hfirst
  refine ⟨chain, d, ha, ?_⟩
  rcases Option.or_eq_some_iff.1 hfound with hfirst | ⟨hnone, hdefault⟩
  · have hd := firstDeclaring_eq_some_iff.1 hfirst
    exact ⟨⟨hd.declares ha, rfl, rfl⟩, rfl, .inl hd⟩
  · have hd := declares_of_mem_maximallySpecific (mem_of_preferredDefault hdefault)
    exact ⟨⟨hd, rfl, rfl⟩, rfl, .inr ⟨firstDeclaring_eq_none_iff.1 hnone, hdefault⟩⟩

section Selecting

variable {r : ResolvedMethod} {isInterface : Bool}

theorem selected_false (d : Declaration) : selected d false = d.outcome := by
  simp [selected, Declaration.outcome]

/-- A virtual call looks no further than this declaration: it is static, which is an error, or it
overrides the method of the call. -/
def Settles (r : ResolvedMethod) (d : Declaration) : Prop :=
  d.method.accessFlags.isStatic ∨ overrides d r

theorem Resolved.overrides_self {d : Declaration} (hd : h.Resolved r d) (hr : ¬r.isPrivate) :
    overrides d r := by
  have hprivate : ¬d.method.accessFlags.isPrivate := by rwa [hd.accessFlags_eq]
  simp [overrides, ← hd.owner_eq, ClassFile.package, hprivate]

theorem selectOnChain_first {d : Declaration}
    (hd : FirstOn chain r.signature.name r.signature.descriptor (Settles r) d) :
    selectOnChain r isInterface chain = some (if d.method.accessFlags.isStatic then
      .error (.incompatible (.isStatic (r.signature.inClass d.owner.name)))
      else selected d isInterface) := by
  obtain ⟨hholds, hdeclared, before, after, rfl, hbefore⟩ := hd
  induction before with
  | nil =>
    rw [List.nil_append, selectOnChain, hdeclared]
    rcases hholds with hstatic | hoverrides
    · simp [hstatic]
    · simp only [hoverrides, if_true]
      split <;> rfl
  | cons c before ih =>
    obtain ⟨hc, hbefore⟩ := List.forall_mem_cons.1 hbefore
    rw [List.cons_append, selectOnChain]
    split
    · exact ih hbefore
    · next m hm =>
      obtain ⟨hinstance, hother⟩ := not_or.1 (hc m hm)
      rw [if_neg hinstance, if_neg hother]
      exact ih hbefore

theorem selectOnChain_unsettled
    (hnone : ∀ c ∈ chain, ∀ m,
      c.method? r.signature.name r.signature.descriptor = some m → ¬Settles r ⟨c, m⟩) :
    selectOnChain r isInterface chain = none := by
  induction chain with
  | nil => rfl
  | cons c chain ih =>
    obtain ⟨hc, hrest⟩ := List.forall_mem_cons.1 hnone
    rw [selectOnChain]
    split
    · exact ih hrest
    · next m hm =>
      obtain ⟨hinstance, hother⟩ := not_or.1 (hc m hm)
      rw [if_neg hinstance, if_neg hother]
      exact ih hrest

theorem selectOnChain_undeclared
    (hnone : ∀ c ∈ chain, c.method? r.signature.name r.signature.descriptor = none) :
    selectOnChain r isInterface chain = none :=
  selectOnChain_unsettled fun c hc m hm => by simp [hnone c hc] at hm

theorem receiverClass_of_not_isArrayName (hname : ¬IsArrayName name) :
    receiverClass name = name := by
  rw [receiverClass]
  split
  · next component hcomponent => exact absurd ⟨component, hcomponent⟩ hname
  · rfl

/-- A virtual call of a method that can be overridden: first the superclasses of the receiver, then
its superinterfaces. -/
theorem lookupVirtual_of_ascent (hname : ¬IsArrayName name) (hr : ¬r.isPrivate)
    (ha : Ascent h name chain) :
    h.lookupVirtual name r false =
      (selectOnChain r false chain).getD (h.selectDefault name r.signature false) := by
  simp [lookupVirtual, hr, receiverClass_of_not_isArrayName hname, superclassChain_ok_iff.2 ha,
    bind, Except.bind]

end Selecting

section Samples

/-- A method that does nothing. -/
def idleMethod (accessFlags : AccessFlags) : Method :=
  ⟨accessFlags, "m", "()V", some ⟨1, 1, [0xb1], []⟩⟩

/-- A class that declares this method, with the given access. -/
def idleClass (name superName : String) (accessFlags : AccessFlags) : ClassFile :=
  ({ ClassOutline.publicClass name with
    superName := some superName
    methods := [idleMethod accessFlags] } : ClassOutline).build

/-- A class without methods. -/
def bareClass (name superName : String) (interfaces : List String) : ClassFile :=
  ({ ClassOutline.publicClass name with superName := some superName, interfaces } :
    ClassOutline).build

def idleInterface (name : String) (interfaces : List String) (accessFlags : AccessFlags) :
    ClassFile :=
  ({ ClassOutline.publicInterface name with interfaces, methods := [idleMethod accessFlags] } :
    ClassOutline).build

end Samples

end Hierarchy

end SymbolicBytecode

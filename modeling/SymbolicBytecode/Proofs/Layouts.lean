import Mathlib
import SymbolicBytecode.Heap
import SymbolicBytecode.Proofs.Chains

/-!
# The layout of objects

Objects have the instance fields of their class and of its superclasses, where a class hides the
fields of its superclasses that have the same name as one of its own. `Hierarchy.HasField` says this
class by class, without the walk down the chain that computes a layout. So a new object has a
default for each of these fields, and no other field.
-/
namespace SymbolicBytecode

/-- The class declares the instance field. Of several with the same name it is the last. -/
def ClassFile.HasOwnField (c : ClassFile) (f : Field) : Prop :=
  ¬f.accessFlags.isStatic ∧ ∃ before after, c.fields = before ++ f :: after ∧
    ∀ g ∈ after, g.name = f.name → g.accessFlags.isStatic

theorem ClassFile.hasOwnField_iff {c : ClassFile} {f : Field} :
    c.HasOwnField f ↔ ∃ before after, c.instanceFields = before ++ f :: after ∧
      ∀ g ∈ after, g.name ≠ f.name := by
  unfold HasOwnField instanceFields
  constructor
  · rintro ⟨hinstance, before, after, hfields, hlast⟩
    refine ⟨before.filter (!·.accessFlags.isStatic), after.filter (!·.accessFlags.isStatic), ?_, ?_⟩
    · rw [hfields, List.filter_append, List.filter_cons_of_pos (by simpa using hinstance)]
    · intro g hg hname
      obtain ⟨hmem, hg⟩ := List.mem_filter.1 hg
      simp [hlast g hmem hname] at hg
  · rintro ⟨before, after, hfields, hlast⟩
    obtain ⟨before', rest, hsplit, -, hrest⟩ := List.filter_eq_append_iff.1 hfields
    obtain ⟨skipped, after', rfl, hskipped, hinstance, rfl⟩ := List.filter_eq_cons_iff.1 hrest
    refine ⟨by simpa using hinstance, before' ++ skipped, after', by simp [hsplit], ?_⟩
    intro g hg hname
    by_contra hg'
    exact hlast g (List.mem_filter.2 ⟨hg, by simpa using hg'⟩) hname

theorem ClassFile.forall_instanceFields_ne_iff {c : ClassFile} {name : String} :
    (∀ g ∈ c.instanceFields, g.name ≠ name) ↔
      ∀ g ∈ c.fields, g.name = name → g.accessFlags.isStatic := by
  simp only [instanceFields, List.mem_filter, Bool.not_eq_true', and_imp, ne_eq]
  refine forall₂_congr fun g _ => ?_
  cases g.accessFlags.isStatic <;> simp

namespace Hierarchy

/-- The objects of a class have the field: the class declares it, or inherits it and has no instance
field of the same name. -/
inductive HasField (h : Hierarchy) : String → Field → Prop
  | own {className : String} {c : ClassFile} {f : Field} (hget : h.get? className = some c)
      (hfield : c.HasOwnField f) : HasField h className f
  | inherited {className superName : String} {c : ClassFile} {f : Field}
      (hget : h.get? className = some c) (hsuper : c.superName = some superName)
      (hfree : ∀ g ∈ c.fields, g.name = f.name → g.accessFlags.isStatic)
      (hfield : HasField h superName f) : HasField h className f

/-- A new object of a class, with every field at its default. -/
def Blank (h : Hierarchy) (className : String) (o : HeapObject) : Prop :=
  ∃ fields, o = .object className fields ∧
    (∀ f, h.HasField className f → ∃ type, FieldType.parse f.descriptor = .ok type ∧
      fields.get? f.name = some type.defaultValue) ∧
    ∀ name, fields.contains name → ∃ f, h.HasField className f ∧ f.name = name

/-- The object that is made for a class. -/
def Makes (h : Hierarchy) (className : String) (o : HeapObject) : Prop :=
  ∃ fields, h.instanceFields className = .ok fields ∧ o = .ofFields className fields

/-- The class has a chain of superclasses, and the instance fields on it all have types. -/
def HasLayout (h : Hierarchy) (name : String) : Prop :=
  ∃ chain, Ascent h name chain ∧
    ∀ c ∈ chain, ∀ f ∈ c.instanceFields, ∃ type, FieldType.parse f.descriptor = .ok type

section Existence

theorem addFields_ok (c : ClassFile) (found : Table FieldType) {fields : List Field}
    (htypes : ∀ f ∈ fields, ∃ type, FieldType.parse f.descriptor = .ok type) :
    ∃ layout, addFields c found fields = .ok layout := by
  induction fields generalizing found with
  | nil => exact ⟨found, rfl⟩
  | cons f rest ih =>
    obtain ⟨type, htype⟩ := htypes f List.mem_cons_self
    rw [addFields, htype]
    exact ih _ fun g hg => htypes g (List.mem_cons_of_mem _ hg)

theorem layOut_ok (found : Table FieldType) {chain : List ClassFile}
    (htypes : ∀ c ∈ chain, ∀ f ∈ c.instanceFields,
      ∃ type, FieldType.parse f.descriptor = .ok type) :
    ∃ layout, layOut found chain = .ok layout := by
  induction chain generalizing found with
  | nil => exact ⟨found, rfl⟩
  | cons c rest ih =>
    obtain ⟨next, hnext⟩ := addFields_ok c found (htypes c List.mem_cons_self)
    rw [layOut, hnext]
    exact ih next fun d hd => htypes d (List.mem_cons_of_mem _ hd)

namespace HasLayout

variable {h k : Hierarchy} {name superName : String}

theorem instanceFields (hl : h.HasLayout name) : ∃ fields, h.instanceFields name = .ok fields := by
  obtain ⟨chain, hascent, htypes⟩ := hl
  rw [Hierarchy.instanceFields, superclassChain_ok_iff.2 hascent]
  exact layOut_ok ∅ fun c hc => htypes c (List.mem_reverse.1 hc)

theorem root {c : ClassFile} (hget : h.get? name = some c) (hsuper : c.superName = none)
    (hfields : c.instanceFields = []) : h.HasLayout name :=
  ⟨[c], .root hget hsuper, by simp [hfields]⟩

theorem step {c : ClassFile} (hget : h.get? name = some c) (hsuper : c.superName = some superName)
    (htypes : ∀ f ∈ c.instanceFields, ∃ type, FieldType.parse f.descriptor = .ok type)
    (hl : h.HasLayout superName) : h.HasLayout name := by
  obtain ⟨chain, hascent, habove⟩ := hl
  exact ⟨c :: chain, .step hget hsuper hascent, List.forall_mem_cons.2 ⟨htypes, habove⟩⟩

end HasLayout

end Existence

section Contents

variable {h : Hierarchy} {className name : String} {c : ClassFile} {chain : List ClassFile}
  {found layout : Table FieldType} {type : FieldType} {fields : List Field} {f : Field}

theorem parses_of_addFields (hadd : addFields c found fields = .ok layout) :
    ∀ f ∈ fields, ∃ type, FieldType.parse f.descriptor = .ok type := by
  induction fields generalizing found with
  | nil => simp
  | cons f rest ih =>
    rw [addFields] at hadd
    split at hadd
    · next type htype => exact List.forall_mem_cons.2 ⟨⟨type, htype⟩, ih hadd⟩
    · cases hadd

theorem parses_of_own (hadd : addFields c found c.instanceFields = .ok layout)
    (hfield : c.HasOwnField f) : ∃ type, FieldType.parse f.descriptor = .ok type := by
  obtain ⟨before, after, hsplit, -⟩ := ClassFile.hasOwnField_iff.1 hfield
  exact parses_of_addFields hadd f (by simp [hsplit])

/-- A later field takes the place of an earlier one of the same name. -/
theorem get?_addFields (hadd : addFields c found fields = .ok layout) :
    layout.get? name = some type ↔
      (∃ before f after, fields = before ++ f :: after ∧ f.name = name ∧
        (∀ g ∈ after, g.name ≠ name) ∧ FieldType.parse f.descriptor = .ok type) ∨
      (∀ g ∈ fields, g.name ≠ name) ∧ found.get? name = some type := by
  induction fields generalizing found with
  | nil =>
    cases hadd
    simp
  | cons f rest ih =>
    rw [addFields] at hadd
    split at hadd
    swap
    · cases hadd
    next type' htype' =>
    rw [ih hadd, Table.get?_insert]
    constructor
    · rintro (⟨before, g, after, rfl, hg⟩ | ⟨hrest, hget⟩)
      · exact .inl ⟨f :: before, g, after, rfl, hg⟩
      split at hget
      · next heq =>
        cases hget
        exact .inl ⟨[], f, rest, rfl, heq.symm, hrest, htype'⟩
      · next hne => exact .inr ⟨List.forall_mem_cons.2 ⟨Ne.symm hne, hrest⟩, hget⟩
    · rintro (⟨before, g, after, hsplit, hg⟩ | ⟨hfree, hget⟩)
      · rcases List.cons_eq_append_iff.1 hsplit with ⟨-, hcons⟩ | ⟨before', -, hrest⟩
        · cases hcons
          obtain ⟨hname, hlast, htype⟩ := hg
          refine .inr ⟨hlast, ?_⟩
          rw [if_pos hname.symm, Except.ok.inj (htype'.symm.trans htype)]
        · exact .inl ⟨before', g, after, hrest, hg⟩
      · obtain ⟨hne, hrest⟩ := List.forall_mem_cons.1 hfree
        exact .inr ⟨hrest, by rwa [if_neg (Ne.symm hne)]⟩

theorem layOut_append (found : Table FieldType) (chain : List ClassFile) (c : ClassFile) :
    layOut found (chain ++ [c]) =
      layOut found chain >>= fun above => addFields c above c.instanceFields := by
  induction chain generalizing found with
  | nil =>
    change (addFields c found c.instanceFields >>= fun layout => layOut layout []) = _
    cases hadd : addFields c found c.instanceFields <;> simp [layOut, bind, Except.bind, hadd]
  | cons d rest ih =>
    rw [List.cons_append, layOut, layOut]
    cases addFields d found d.instanceFields with
    | error e => rfl
    | ok above => exact ih above

theorem hasField_iff (hget : h.get? className = some c) :
    h.HasField className f ↔ c.HasOwnField f ∨ (∀ g ∈ c.instanceFields, g.name ≠ f.name) ∧
      ∃ superName, c.superName = some superName ∧ h.HasField superName f := by
  constructor
  · intro hfield
    cases hfield with
    | own hget' hfield =>
      cases hget.symm.trans hget'
      exact .inl hfield
    | inherited hget' hsuper hfree hfield =>
      cases hget.symm.trans hget'
      exact .inr ⟨ClassFile.forall_instanceFields_ne_iff.2 hfree, _, hsuper, hfield⟩
  · rintro (hfield | ⟨hfree, superName, hsuper, hfield⟩)
    · exact .own hget hfield
    · exact .inherited hget hsuper (ClassFile.forall_instanceFields_ne_iff.1 hfree) hfield

/-- What one class adds to the layout of its superclass. -/
theorem get?_addFields_instanceFields (hadd : addFields c found c.instanceFields = .ok layout) :
    layout.get? name = some type ↔
      (∃ f, c.HasOwnField f ∧ f.name = name ∧ FieldType.parse f.descriptor = .ok type) ∨
      (∀ g ∈ c.instanceFields, g.name ≠ name) ∧ found.get? name = some type := by
  rw [get?_addFields hadd]
  refine or_congr_left ?_
  simp only [ClassFile.hasOwnField_iff]
  constructor
  · rintro ⟨before, f, after, hsplit, rfl, hlast, htype⟩
    exact ⟨f, ⟨before, after, hsplit, hlast⟩, rfl, htype⟩
  · rintro ⟨f, ⟨before, after, hsplit, hlast⟩, rfl, htype⟩
    exact ⟨before, f, after, hsplit, rfl, hlast, htype⟩

theorem Ascent.get?_layOut (ha : Ascent h className chain)
    (hlayout : layOut ∅ chain.reverse = .ok layout) :
    layout.get? name = some type ↔
      ∃ f, h.HasField className f ∧ f.name = name ∧ FieldType.parse f.descriptor = .ok type := by
  induction ha generalizing layout with
  | @root className c hget hsuper =>
    obtain ⟨_, hadd, hnil⟩ := except_bind_ok_iff.1 hlayout
    cases hnil
    rw [get?_addFields_instanceFields hadd]
    simp [hasField_iff hget, hsuper]
  | @step className superName c chain hget hsuper rest ih =>
    rw [List.reverse_cons, layOut_append] at hlayout
    obtain ⟨above, habove, hadd⟩ := except_bind_ok_iff.1 hlayout
    rw [get?_addFields_instanceFields hadd, ih habove]
    simp only [hasField_iff hget, hsuper, Option.some.injEq, exists_eq_left']
    constructor
    · rintro (⟨f, hfield, hf⟩ | ⟨hfree, f, hfield, rfl, htype⟩)
      · exact ⟨f, .inl hfield, hf⟩
      · exact ⟨f, .inr ⟨hfree, hfield⟩, rfl, htype⟩
    · rintro ⟨f, hfield | ⟨hfree, hfield⟩, rfl, htype⟩
      · exact .inl ⟨f, hfield, rfl, htype⟩
      · exact .inr ⟨hfree, f, hfield, rfl, htype⟩

theorem Ascent.parses_of_layOut (ha : Ascent h className chain)
    (hlayout : layOut ∅ chain.reverse = .ok layout) (hfield : h.HasField className f) :
    ∃ type, FieldType.parse f.descriptor = .ok type := by
  induction ha generalizing layout with
  | root hget hsuper =>
    obtain ⟨_, hadd, hnil⟩ := except_bind_ok_iff.1 hlayout
    cases hnil
    rcases (hasField_iff hget).1 hfield with hfield | ⟨-, _, hsuper', -⟩
    · exact parses_of_own hadd hfield
    · cases hsuper.symm.trans hsuper'
  | step hget hsuper rest ih =>
    rw [List.reverse_cons, layOut_append] at hlayout
    obtain ⟨above, habove, hadd⟩ := except_bind_ok_iff.1 hlayout
    rcases (hasField_iff hget).1 hfield with hfield | ⟨-, _, hsuper', hfield⟩
    · exact parses_of_own hadd hfield
    · cases hsuper.symm.trans hsuper'
      exact ih habove hfield

theorem Makes.blank {o : HeapObject} (hmakes : h.Makes className o) : h.Blank className o := by
  obtain ⟨layout, hlayout, rfl⟩ := hmakes
  obtain ⟨chain, hchain, hlayout⟩ := except_bind_ok_iff.1 hlayout
  have hascent := superclassChain_ok_iff.1 hchain
  refine ⟨_, rfl, fun f hf => ?_, fun name hname => ?_⟩
  · obtain ⟨type, htype⟩ := hascent.parses_of_layOut hlayout hf
    refine ⟨type, htype, ?_⟩
    rw [Table.get?_map, (hascent.get?_layOut hlayout).2 ⟨f, hf, rfl, htype⟩, Option.map_some]
  · rw [Table.contains, Table.get?_map, Option.isSome_map] at hname
    obtain ⟨type, htype⟩ := Option.isSome_iff_exists.1 hname
    obtain ⟨f, hf, hfname, -⟩ := (hascent.get?_layOut hlayout).1 htype
    exact ⟨f, hf, hfname⟩

end Contents

end Hierarchy

end SymbolicBytecode

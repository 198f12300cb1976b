import Mathlib
import SymbolicBytecode.Proofs.BootstrapClasses
import SymbolicBytecode.Proofs.Superclasses

/-!
# Subtyping is a preorder

`Below` states the rules of subtyping, with array classes, malformed names and unknown classes, and
the decision procedure decides it on every hierarchy. The rules chain up if the classes that they
mention by name stand at the top of the hierarchy: what is above the root class or above an array
interface must be above every array class too.
-/
namespace SymbolicBytecode

open Relation (ReflTransGen)

/-- The name of an array class, the components of which are objects of the other class. -/
def IsArrayOf (name component : String) : Prop :=
  ∃ chars type, name.toList = '[' :: chars ∧ FieldType.read chars = some (type, []) ∧
    type.className? = some component

theorem IsArrayOf.isArrayName {name component : String} (h : IsArrayOf name component) :
    IsArrayName name := by
  obtain ⟨chars, _, hname, -⟩ := h
  exact ⟨chars, hname⟩

theorem IsArrayOf.unique {name component other : String} (h : IsArrayOf name component)
    (h' : IsArrayOf name other) : component = other := by
  obtain ⟨chars, type, hname, hread, hclass⟩ := h
  obtain ⟨chars', type', hname', hread', hclass'⟩ := h'
  obtain ⟨-, rfl⟩ := List.cons.inj (hname.symm.trans hname')
  obtain ⟨rfl, -⟩ := Prod.mk.inj (Option.some.inj (hread.symm.trans hread'))
  exact Option.some.inj (hclass.symm.trans hclass')

namespace Hierarchy

variable {h : Hierarchy} {a b c m n : String}

/-- The rules of subtyping. Whether a class is known or a name well-formed is of no concern to those
that do not ask for it. -/
inductive Below (h : Hierarchy) : String → String → Prop
  | refl (a : String) : Below h a a
  | root (a : String) : Below h a objectClass
  | cloneable {a : String} (ha : IsArrayName a) : Below h a cloneableClass
  | serializable {a : String} (ha : IsArrayName a) : Below h a serializableClass
  | array {a b m n : String} (ha : IsArrayOf a m) (hb : IsArrayOf b n) (hbelow : Below h m n) :
      Below h a b
  | declared {a b : String} (ha : ¬IsArrayName a) (hsteps : ReflTransGen h.Inherits a b) :
      Below h a b

section Deciding

theorem isSubclass_refl (h : Hierarchy) (a : String) : h.isSubclass a a := by
  rw [isSubclass, if_pos (.inl rfl)]

theorem isSubclass_root (h : Hierarchy) (a : String) : h.isSubclass a objectClass := by
  rw [isSubclass, if_pos (.inr rfl)]

theorem isSubclass_arrayInterface (ha : IsArrayName a)
    (hb : b = cloneableClass ∨ b = serializableClass) : h.isSubclass a b := by
  obtain ⟨chars, hname⟩ := ha
  rw [isSubclass]
  grind

theorem isSubclass_arrays (ha : IsArrayOf a m) (hb : IsArrayOf b n)
    (hcomponents : h.isSubclass m n) : h.isSubclass a b := by
  obtain ⟨chars, type, hname, hread, hclass⟩ := ha
  obtain ⟨chars', type', hname', hread', hclass'⟩ := hb
  rw [isSubclass]
  grind

theorem below_of_isSubclass (hsub : h.isSubclass a b) : h.Below a b := by
  fun_induction isSubclass h a b with
  | case1 a b heq =>
    rcases heq with rfl | rfl
    · exact .refl a
    · exact .root a
  | case2 a b _ chars hname heq =>
    rcases heq with rfl | rfl
    · exact .cloneable ⟨chars, hname⟩
    · exact .serializable ⟨chars, hname⟩
  | case3 a b _ chars hname _ chars' hname' type type' hread hread' m n hclass hclass' ih =>
    exact .array ⟨chars, type, hname, hread, hclass⟩ ⟨chars', type', hname', hread', hclass'⟩
      (ih hsub)
  | case4 a b hne chars hname _ chars' hname' type type' hread hread' =>
    -- Equal types have equal descriptors, so this is one and the same array class.
    obtain rfl : type = type' := of_decide_eq_true hsub
    have heq : a.toList = b.toList := by
      rw [hname, hname', FieldType.eq_of_read hread, FieldType.eq_of_read hread']
    exact absurd (.inl (String.toList_inj.1 heq)) hne
  | case5 => cases hsub
  | case6 => cases hsub
  | case7 a b _ hname =>
    refine .declared (fun ⟨chars, hchars⟩ => hname chars hchars) ?_
    exact mem_reached_iff.1 (List.contains_iff_mem.1 hsub)

/-- The procedure decides the rules. -/
theorem isSubclass_iff_below : h.isSubclass a b ↔ h.Below a b := by
  refine ⟨below_of_isSubclass, fun hbelow => ?_⟩
  induction hbelow with
  | refl a => exact isSubclass_refl h a
  | root a => exact isSubclass_root h a
  | cloneable ha => exact isSubclass_arrayInterface ha (.inl rfl)
  | serializable ha => exact isSubclass_arrayInterface ha (.inr rfl)
  | array ha hb _ ih => exact isSubclass_arrays ha hb ih
  | declared ha hsteps => exact (isSubclass_iff ha).2 (.inr hsteps)

end Deciding

/-- The classes that subtyping mentions by name are at the top: the root class declares no
supertypes, the array interfaces declare no other than the root class, and nobody declares an
array class. -/
structure Rooted (h : Hierarchy) : Prop where
  root : ∀ name, ¬h.Inherits objectClass name
  cloneable : ∀ name, h.Inherits cloneableClass name → name = objectClass
  serializable : ∀ name, h.Inherits serializableClass name → name = objectClass
  names : ∀ name other, h.Inherits name other → ¬IsArrayName other

namespace Rooted

theorem eq_root (hh : h.Rooted) (hsteps : ReflTransGen h.Inherits objectClass a) :
    a = objectClass := by
  rcases hsteps.cases_head with heq | ⟨next, hnext, -⟩
  · exact heq.symm
  · exact absurd hnext (hh.root next)

/-- Above a class that declares no other than the root class there is only the root class. -/
theorem eq_or_eq_root (hh : h.Rooted) (hdeclares : ∀ name, h.Inherits a name → name = objectClass)
    (hsteps : ReflTransGen h.Inherits a b) : b = a ∨ b = objectClass := by
  rcases hsteps.cases_head with heq | ⟨next, hnext, hsteps⟩
  · exact .inl heq.symm
  · obtain rfl := hdeclares next hnext
    exact .inr (hh.eq_root hsteps)

/-- Declarations do not lead to array classes. -/
theorem not_isArrayName (hh : h.Rooted) (ha : ¬IsArrayName a)
    (hsteps : ReflTransGen h.Inherits a b) : ¬IsArrayName b := by
  rcases hsteps.cases_tail with rfl | ⟨last, -, hlast⟩
  · exact ha
  · exact hh.names last b hlast

end Rooted

namespace Below

/-- Below a class that is not an array class, only declarations count. -/
theorem steps (ha : ¬IsArrayName a) (hbelow : h.Below a b) :
    b = objectClass ∨ ReflTransGen h.Inherits a b := by
  cases hbelow with
  | refl => exact .inr .refl
  | root => exact .inl rfl
  | cloneable harray => exact absurd harray ha
  | serializable harray => exact absurd harray ha
  | array harray => exact absurd harray.isArrayName ha
  | declared _ hsteps => exact .inr hsteps

/-- What is above a class that declares no other than the root class is above all its subtypes. -/
theorem trans_top (hh : h.Rooted) (hb : ¬IsArrayName b)
    (hdeclares : ∀ name, h.Inherits b name → name = objectClass) (hab : h.Below a b)
    (hbc : h.Below b c) : h.Below a c := by
  rcases hbc.steps hb with rfl | hsteps
  · exact .root a
  · rcases hh.eq_or_eq_root hdeclares hsteps with rfl | rfl
    · exact hab
    · exact .root a

theorem trans (hh : h.Rooted) (hab : h.Below a b) (hbc : h.Below b c) : h.Below a c := by
  induction hab generalizing c with
  | refl => exact hbc
  | root a =>
    exact trans_top hh (by decide) (fun name hname => absurd hname (hh.root name)) (.root a) hbc
  | cloneable ha => exact trans_top hh (by decide) hh.cloneable (.cloneable ha) hbc
  | serializable ha => exact trans_top hh (by decide) hh.serializable (.serializable ha) hbc
  | declared ha hsteps =>
    rcases hbc.steps (hh.not_isArrayName ha hsteps) with rfl | hsteps'
    · exact .root _
    · exact .declared ha (hsteps.trans hsteps')
  | array ha hb hbelow ih =>
    cases hbc with
    | refl => exact .array ha hb hbelow
    | root => exact .root _
    | cloneable => exact .cloneable ha.isArrayName
    | serializable => exact .serializable ha.isArrayName
    | declared hname => exact absurd hb.isArrayName hname
    | array hb' hc hbelow' =>
      obtain rfl := hb.unique hb'
      exact .array ha hc (ih hbelow')

end Below

/-- **Subtyping is a preorder** on all names: of array classes, of unknown classes, and also those
that name no class at all. -/
theorem isSubclass_preorder (hh : h.Rooted) :
    (∀ a, h.isSubclass a a) ∧
    ∀ a b c, h.isSubclass a b → h.isSubclass b c → h.isSubclass a c := by
  refine ⟨isSubclass_refl h, fun a b c hab hbc => ?_⟩
  rw [isSubclass_iff_below] at hab hbc ⊢
  exact hab.trans hh hbc

section Bootstrap

theorem inherits_add_iff {added : ClassFile} :
    (h.add added).Inherits a b ↔
      if a = added.name then b ∈ added.supertypes else h.Inherits a b := by
  unfold Inherits
  rw [get?_add]
  split <;> simp

/-- An ordinary class stays below the classes at the top. -/
theorem Rooted.add (hh : h.Rooted) {added : ClassFile}
    (hnew : added.name ∉ [objectClass, cloneableClass, serializableClass])
    (hnames : ∀ name ∈ added.supertypes, ¬IsArrayName name) : (h.add added).Rooted := by
  simp only [List.mem_cons, List.not_mem_nil, or_false, not_or] at hnew
  obtain ⟨hroot, hcloneable, hserializable⟩ := hnew
  constructor
  · simpa [inherits_add_iff, Ne.symm hroot] using hh.root
  · simpa [inherits_add_iff, Ne.symm hcloneable] using hh.cloneable
  · simpa [inherits_add_iff, Ne.symm hserializable] using hh.serializable
  · intro name other hinherits
    rw [inherits_add_iff] at hinherits
    split at hinherits
    · exact hnames other hinherits
    · exact hh.names name other hinherits

theorem rooted_bootstrap : bootstrap.Rooted := by
  have houtlines : ∀ o ∈ Bootstrap.outlines, ∀ name ∈ o.build.supertypes,
      o.name ≠ objectClass ∧ ¬IsArrayName name ∧
      (o.name = cloneableClass ∨ o.name = serializableClass → name = objectClass) := by
    decide +kernel
  have hdeclared {name other : String} (hinherits : bootstrap.Inherits name other) :
      name ≠ objectClass ∧ ¬IsArrayName other ∧
      (name = cloneableClass ∨ name = serializableClass → other = objectClass) := by
    obtain ⟨c, hget, hother⟩ := hinherits
    by_cases hknown : name ∈ Bootstrap.outlines.map ClassOutline.name
    · obtain ⟨o, ho, rfl⟩ := List.mem_map.1 hknown
      obtain rfl := Option.some.inj ((bootstrap_get? ho).symm.trans hget)
      exact houtlines o ho other hother
    · simp [bootstrap_get?_of_notMem hknown] at hget
  constructor
  · exact fun name hinherits => (hdeclared hinherits).1 rfl
  · exact fun name hinherits => (hdeclared hinherits).2.2 (.inl rfl)
  · exact fun name hinherits => (hdeclared hinherits).2.2 (.inr rfl)
  · exact fun name other hinherits => (hdeclared hinherits).2.1

/-- The class `p/B` implements the interface `p/I` and extends a class that is not known. -/
def cargoClasses : Hierarchy :=
  (bootstrap.add (idleInterface "p/I" [] 0x0001)).add (bareClass "p/B" "p/Missing" ["p/I"])

theorem rooted_cargoClasses : cargoClasses.Rooted :=
  (rooted_bootstrap.add (by decide) (by decide)).add (by decide) (by decide)

/-- From arrays of arrays to arrays of an array interface, by way of other arrays of arrays. -/
theorem isSubclass_cargoClasses :
    cargoClasses.isSubclass "[[Lp/B;" "[[Lp/I;" ∧
    cargoClasses.isSubclass "[[Lp/I;" "[Ljava/io/Serializable;" ∧
    cargoClasses.isSubclass "[[Lp/B;" "[Ljava/io/Serializable;" := by
  have hget : cargoClasses.get? "p/B" = some (bareClass "p/B" "p/Missing" ["p/I"]) :=
    (get?_add _ _ _).trans (if_pos rfl)
  have hdeclared : cargoClasses.isSubclass "p/B" "p/I" :=
    (isSubclass_iff (by decide)).2 (.inr (.single ⟨_, hget, by decide⟩))
  have hfirst : cargoClasses.isSubclass "[[Lp/B;" "[[Lp/I;" :=
    isSubclass_arrays ⟨_, _, rfl, rfl, rfl⟩ ⟨_, _, rfl, rfl, rfl⟩
      (isSubclass_arrays ⟨_, _, rfl, rfl, rfl⟩ ⟨_, _, rfl, rfl, rfl⟩ hdeclared)
  have hsecond : cargoClasses.isSubclass "[[Lp/I;" "[Ljava/io/Serializable;" := by
    decide +kernel
  exact ⟨hfirst, hsecond, (isSubclass_preorder rooted_cargoClasses).2 _ _ _ hfirst hsecond⟩

end Bootstrap

end Hierarchy

end SymbolicBytecode

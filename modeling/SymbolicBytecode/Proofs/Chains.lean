import Mathlib
import SymbolicBytecode.Hierarchy.Chain
import SymbolicBytecode.Proofs.Sequencing

/-!
# Superclass chains

`Ascent` describes a superclass chain without the bookkeeping of the walk that computes it: known
classes, each followed by its superclass, up to one that has none. Such a chain depends on the
classes on it alone, and none of them is on it twice.
-/
namespace SymbolicBytecode.Hierarchy

variable {h k : Hierarchy} {name : String}

theorem find_ok_iff {c : ClassFile} : h.find name = .ok c ↔ h.get? name = some c := by
  cases hget : h.get? name <;> simp [find, hget]

theorem find_error_iff {e : LinkError} :
    h.find name = .error e ↔ h.get? name = none ∧ e = .classNotFound name := by
  cases hget : h.get? name <;> simp [find, hget, eq_comm]

theorem name_of_get? {c : ClassFile} (hget : h.get? name = some c) : c.name = name :=
  h.named name c hget

/-- The walk from a class up to one that has no superclass. -/
inductive Ascent (h : Hierarchy) : String → List ClassFile → Prop
  | root {name : String} {c : ClassFile} (hget : h.get? name = some c)
      (hsuper : c.superName = none) : Ascent h name [c]
  | step {name superName : String} {c : ClassFile} {chain : List ClassFile}
      (hget : h.get? name = some c) (hsuper : c.superName = some superName)
      (rest : Ascent h superName chain) : Ascent h name (c :: chain)

namespace Ascent

variable {chain : List ClassFile}

theorem unique {chain' : List ClassFile} (ha : Ascent h name chain) (hb : Ascent h name chain') :
    chain = chain' := by
  induction ha generalizing chain' with
  | root hget hsuper =>
    cases hb with
    | root hget' => simp_all
    | step hget' hsuper' => simp_all
  | step hget hsuper rest ih =>
    cases hb with
    | root hget' hsuper' => simp_all
    | step hget' hsuper' rest' =>
      obtain rfl := Option.some.inj (hget.symm.trans hget')
      obtain rfl := Option.some.inj (hsuper.symm.trans hsuper')
      rw [ih rest']

theorem get?_of_mem (ha : Ascent h name chain) {c : ClassFile} (hc : c ∈ chain) :
    h.get? c.name = some c := by
  induction ha with
  | root hget =>
    rw [List.mem_singleton.1 hc, name_of_get? hget]
    exact hget
  | step hget _ _ ih =>
    rcases List.mem_cons.1 hc with rfl | hc
    · rw [name_of_get? hget]
      exact hget
    · exact ih hc

/-- From any of its classes on, a chain is the chain of that class. -/
theorem of_append {c : ClassFile} {xs ys : List ClassFile} (ha : Ascent h name (xs ++ c :: ys)) :
    Ascent h c.name (c :: ys) := by
  induction xs generalizing name with
  | nil =>
    have hname : c.name = name := by
      cases ha with
      | root hget => exact name_of_get? hget
      | step hget => exact name_of_get? hget
    rw [hname]
    exact ha
  | cons x xs ih =>
    rw [List.cons_append] at ha
    generalize hrest : xs ++ c :: ys = rest at ha
    cases ha with
    | root => simp at hrest
    | step hget hsuper rest =>
      subst hrest
      exact ih rest

theorem suffix_of_mem (ha : Ascent h name chain) {c : ClassFile} (hc : c ∈ chain) :
    ∃ suffix, suffix <:+ chain ∧ Ascent h c.name suffix := by
  obtain ⟨before, after, rfl⟩ := List.append_of_mem hc
  exact ⟨c :: after, List.suffix_append before _, ha.of_append⟩

/-- A walk that ends goes through no class twice: it would have to be its own proper rest. -/
theorem nodup_names (ha : Ascent h name chain) : (chain.map ClassFile.name).Nodup := by
  induction ha with
  | root => simp
  | @step name superName d chain hget hsuper rest ih =>
    refine List.nodup_cons.2 ⟨fun hmem => ?_, ih⟩
    obtain ⟨c, hc, hname⟩ := List.mem_map.1 hmem
    obtain ⟨suffix, hsuffix, hascent⟩ := rest.suffix_of_mem hc
    rw [hname, name_of_get? hget] at hascent
    have hlength := hsuffix.length_le
    rw [hascent.unique (.step hget hsuper rest), List.length_cons] at hlength
    omega

theorem of_get? (ha : Ascent h name chain) (hknown : ∀ c ∈ chain, k.get? c.name = some c) :
    Ascent k name chain := by
  induction ha with
  | root hget hsuper =>
    have hk := hknown _ List.mem_cons_self
    rw [name_of_get? hget] at hk
    exact .root hk hsuper
  | step hget hsuper rest ih =>
    have hk := hknown _ List.mem_cons_self
    rw [name_of_get? hget] at hk
    exact .step hk hsuper (ih fun c hc => hknown c (List.mem_cons_of_mem _ hc))

theorem chainFrom_eq (ha : Ascent h name chain) (start : String) {seen : List String}
    (hfresh : ∀ c ∈ chain, c.name ∉ seen) : h.chainFrom start seen name = .ok chain := by
  induction ha generalizing seen with
  | @root name c hget hsuper =>
    have hseen : name ∉ seen := name_of_get? hget ▸ hfresh c List.mem_cons_self
    rw [chainFrom, dif_neg hseen]
    split <;> simp_all
  | @step name superName c chain hget hsuper rest ih =>
    have hseen : name ∉ seen := name_of_get? hget ▸ hfresh c List.mem_cons_self
    have hrest : h.chainFrom start (name :: seen) superName = .ok chain := by
      apply ih
      intro d hd
      have hne := (List.nodup_cons.1 (nodup_names (.step hget hsuper rest))).1
      rw [name_of_get? hget] at hne
      rw [List.mem_cons, not_or]
      exact ⟨fun heq => hne (List.mem_map.2 ⟨d, hd, heq⟩), hfresh d (List.mem_cons_of_mem _ hd)⟩
    rw [chainFrom, dif_neg hseen]
    split
    · simp_all
    · next d hd =>
      obtain rfl := Option.some.inj (hget.symm.trans hd)
      simp only [hsuper, hrest]
      rfl

end Ascent

theorem ascent_of_chainFrom {start current : String} {seen : List String} {chain : List ClassFile}
    (hchain : h.chainFrom start seen current = .ok chain) : Ascent h current chain := by
  fun_induction chainFrom h start seen current generalizing chain with
  | case1 => cases hchain
  | case2 => cases hchain
  | case3 seen current hseen c hget hsuper =>
    cases hchain
    exact .root hget hsuper
  | case4 seen current hseen c hget superName hsuper ih =>
    obtain ⟨rest, hrest, hcons⟩ := except_bind_ok_iff.1 hchain
    cases hcons
    exact .step hget hsuper (ih hrest)

theorem superclassChain_ok_iff {chain : List ClassFile} :
    h.superclassChain name = .ok chain ↔ Ascent h name chain :=
  ⟨ascent_of_chainFrom, fun ha => ha.chainFrom_eq name (by simp)⟩

theorem chainFrom_error {start current : String} {seen : List String} {e : LinkError}
    (hchain : h.chainFrom start seen current = .error e) :
    (∃ n, e = .classNotFound n) ∨ ∃ n, e = .classIllFormed n := by
  fun_induction chainFrom h start seen current generalizing e with
  | case1 => cases hchain; exact .inr ⟨_, rfl⟩
  | case2 => cases hchain; exact .inl ⟨_, rfl⟩
  | case3 => cases hchain
  | case4 seen current hseen d hget superName hsuper ih =>
    rcases except_bind_error_iff.1 hchain with hrest | ⟨rest, _, hcons⟩
    · exact ih hrest
    · cases hcons

theorem superclassChain_error {e : LinkError} (hchain : h.superclassChain name = .error e) :
    (∃ n, e = .classNotFound n) ∨ ∃ n, e = .classIllFormed n :=
  chainFrom_error hchain

/-- The object layout of a class depends on the classes of its chain alone. -/
theorem instanceFields_of_get? {chain : List ClassFile} (ha : Ascent h name chain)
    (hknown : ∀ c ∈ chain, k.get? c.name = some c) :
    k.instanceFields name = h.instanceFields name := by
  unfold instanceFields
  rw [superclassChain_ok_iff.2 ha, superclassChain_ok_iff.2 (ha.of_get? hknown)]

theorem walkUp_of_mem {current : String} {seen : List String} (hseen : current ∈ seen) :
    h.walkUp seen current = [] := by
  rw [walkUp, dif_pos hseen]

theorem walkUp_of_notMem {current : String} {seen : List String} (hseen : current ∉ seen) :
    ∃ rest, h.walkUp seen current = current :: rest := by
  rw [walkUp, dif_neg hseen]
  split
  · exact ⟨_, rfl⟩
  · split
    · exact ⟨_, rfl⟩
    · split <;> exact ⟨_, rfl⟩

end SymbolicBytecode.Hierarchy

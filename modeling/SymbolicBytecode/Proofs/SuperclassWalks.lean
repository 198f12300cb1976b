import Mathlib
import SymbolicBytecode.Proofs.Chains

/-!
# How the way up the superclasses ends

From any name one can go up from class to superclass. `WalksThrough` says which classes that leads
through and where to, without the bookkeeping of the walk. As only finitely many classes are known,
the way up ends at a class without a superclass, at a class that it went through before, or at a
class that is not known. Which of these it is decides what becomes of the superclass chain.
-/
namespace SymbolicBytecode.Hierarchy

variable {h : Hierarchy} {name : String} {chain : List ClassFile} {next : Option String}

/-- The way up from a class leads through the classes of the chain, which are known and pairwise
distinct, and then to the next name. There is none behind a class without a superclass. -/
structure WalksThrough (h : Hierarchy) (name : String) (chain : List ClassFile)
    (next : Option String) : Prop where
  known : ∀ c ∈ chain, h.get? c.name = some c
  distinct : (chain.map ClassFile.name).Nodup
  /-- The class itself comes first, and each class is followed by its superclass. -/
  linked : some name :: chain.map ClassFile.superName = chain.map (some ·.name) ++ [next]

/-- What the superclass chain of a class is, if the way up through the given classes ends there. -/
inductive WalkEnd (h : Hierarchy) (name : String) (chain : List ClassFile) :
    Option String → Except LinkError (List ClassFile) → Prop
  | top : WalkEnd h name chain none (.ok chain)
  | circle {n : String} (hmem : n ∈ chain.map ClassFile.name) :
      WalkEnd h name chain (some n) (.error (.classIllFormed name))
  | gap {n : String} (hget : h.get? n = none) :
      WalkEnd h name chain (some n) (.error (.classNotFound n))

namespace WalksThrough

theorem nil (h : Hierarchy) (name : String) : h.WalksThrough name [] (some name) :=
  ⟨by simp, .nil, rfl⟩

theorem root {c : ClassFile} (hget : h.get? name = some c) (hsuper : c.superName = none) :
    h.WalksThrough name [c] none := by
  obtain rfl := name_of_get? hget
  exact ⟨by simpa using hget, by simp, by simp [hsuper]⟩

theorem step {c : ClassFile} {superName : String} (hget : h.get? name = some c)
    (hsuper : c.superName = some superName) (hnew : name ∉ chain.map ClassFile.name)
    (hrest : h.WalksThrough superName chain next) : h.WalksThrough name (c :: chain) next := by
  obtain rfl := name_of_get? hget
  exact ⟨List.forall_mem_cons.2 ⟨hget, hrest.known⟩, List.nodup_cons.2 ⟨hnew, hrest.distinct⟩,
    by simpa [hsuper] using hrest.linked⟩

/-- How the way up goes on from its first class. -/
theorem of_cons {c : ClassFile} (hwalk : h.WalksThrough name (c :: chain) next) :
    h.get? name = some c ∧ name ∉ chain.map ClassFile.name ∧
      ((c.superName = none ∧ chain = [] ∧ next = none) ∨
        ∃ superName, c.superName = some superName ∧ h.WalksThrough superName chain next) := by
  obtain ⟨hget, hknown⟩ := List.forall_mem_cons.1 hwalk.known
  obtain ⟨hnew, hdistinct⟩ := List.nodup_cons.1 hwalk.distinct
  obtain ⟨hname, hlinked⟩ := List.cons.inj hwalk.linked
  obtain rfl := Option.some.inj hname
  refine ⟨hget, hnew, ?_⟩
  cases hsuper : c.superName with
  | some superName =>
    rw [List.map_cons, hsuper] at hlinked
    exact .inr ⟨superName, rfl, hknown, hdistinct, hlinked⟩
  | none =>
    cases chain with
    | nil => simp_all
    | cons d rest => simp [hsuper] at hlinked

theorem ascent (hwalk : h.WalksThrough name chain none) : Ascent h name chain := by
  induction chain generalizing name with
  | nil => simpa using hwalk.linked
  | cons c rest ih =>
    obtain ⟨hget, -, ⟨hsuper, rfl, -⟩ | ⟨superName, hsuper, hrest⟩⟩ := hwalk.of_cons
    · exact .root hget hsuper
    · exact .step hget hsuper (ih hrest)

theorem length_le (hwalk : h.WalksThrough name chain next) : chain.length ≤ h.size := by
  have hsubset : chain.map ClassFile.name ⊆ h.classes.keys := by
    intro n hn
    obtain ⟨c, hc, rfl⟩ := List.mem_map.1 hn
    exact (Table.mem_keys_iff _ _).2 (Option.isSome_iff_exists.2 ⟨c, hwalk.known c hc⟩)
  simpa [Table.keys, size, Table.size] using
    (List.subperm_of_subset hwalk.distinct hsubset).length_le

/-- The computation follows the way up. -/
theorem chainFrom_eq {start n : String} {seen : List String}
    (hwalk : h.WalksThrough name chain (some n)) (hfresh : ∀ c ∈ chain, c.name ∉ seen) :
    h.chainFrom start seen name =
      (h.chainFrom start ((chain.map ClassFile.name).reverse ++ seen) n).map (chain ++ ·) := by
  induction chain generalizing name seen with
  | nil =>
    obtain rfl : name = n := by simpa using hwalk.linked
    rw [List.map_nil, List.reverse_nil, List.nil_append]
    cases h.chainFrom start seen name <;> rfl
  | cons c rest ih =>
    obtain ⟨hget, hnew, ⟨-, -, hnone⟩ | ⟨superName, hsuper, hrest⟩⟩ := hwalk.of_cons
    · cases hnone
    obtain ⟨hc, hfresh⟩ := List.forall_mem_cons.1 hfresh
    rw [name_of_get? hget] at hc
    have hfresh' : ∀ d ∈ rest, d.name ∉ name :: seen := by
      intro d hd
      rw [List.mem_cons, not_or]
      exact ⟨fun heq => hnew (List.mem_map.2 ⟨d, hd, heq⟩), hfresh d hd⟩
    have hlater := ih hrest hfresh'
    rw [chainFrom, dif_neg hc]
    split
    · simp_all
    · next d hd =>
      obtain rfl := Option.some.inj (hget.symm.trans hd)
      simp only [hsuper, hlater, List.map_cons, List.reverse_cons, List.append_assoc,
        List.singleton_append, name_of_get? hget]
      cases h.chainFrom start _ n <;> rfl

end WalksThrough

/-- Every way up ends. -/
theorem exists_walksThrough (h : Hierarchy) (seen : List String) (name : String) :
    ∃ chain next, h.WalksThrough name chain next ∧ (∀ c ∈ chain, c.name ∉ seen) ∧
      ∀ n, next = some n → n ∈ seen ∨ n ∈ chain.map ClassFile.name ∨ h.get? n = none := by
  induction seen, name using chainFrom.induct h with
  | case1 seen name hseen => exact ⟨[], _, .nil h name, by simp, by simp [hseen]⟩
  | case2 seen name hseen hget => exact ⟨[], _, .nil h name, by simp, by simp [hget]⟩
  | case3 seen name hseen c hget hsuper =>
    refine ⟨[c], none, .root hget hsuper, ?_, by simp⟩
    simpa [name_of_get? hget] using hseen
  | case4 seen name hseen c hget superName hsuper ih =>
    obtain ⟨chain, next, hwalk, hfresh, hend⟩ := ih
    have hnew : name ∉ chain.map ClassFile.name := by
      intro hmem
      obtain ⟨d, hd, rfl⟩ := List.mem_map.1 hmem
      exact hfresh d hd List.mem_cons_self
    refine ⟨c :: chain, next, hwalk.step hget hsuper hnew, ?_, fun n hn => ?_⟩
    · refine List.forall_mem_cons.2 ⟨?_, fun d hd hmem => hfresh d hd (List.mem_cons_of_mem _ hmem)⟩
      rwa [name_of_get? hget]
    · have := hend n hn
      simp only [List.mem_cons, List.map_cons, name_of_get? hget] at this ⊢
      tauto

/-- Where the way up ends decides what becomes of the chain. -/
theorem WalksThrough.superclassChain_end (hwalk : h.WalksThrough name chain next)
    {r : Except LinkError (List ClassFile)} (hend : WalkEnd h name chain next r) :
    h.superclassChain name = r := by
  cases hend with
  | top => exact superclassChain_ok_iff.2 hwalk.ascent
  | @circle n hmem =>
    rw [superclassChain, hwalk.chainFrom_eq (by simp), chainFrom, dif_pos (by simpa using hmem)]
    rfl
  | @gap n hget =>
    have hnew : n ∉ (chain.map ClassFile.name).reverse ++ [] := by
      simp only [List.append_nil, List.mem_reverse, List.mem_map, not_exists, not_and]
      rintro c hc rfl
      simp [hwalk.known c hc] at hget
    rw [superclassChain, hwalk.chainFrom_eq (by simp), chainFrom, dif_neg hnew]
    split
    · rfl
    · simp_all

theorem superclassChain_walkEnd (h : Hierarchy) (name : String) :
    ∃ chain next, h.WalksThrough name chain next ∧
      WalkEnd h name chain next (h.superclassChain name) := by
  obtain ⟨chain, next, hwalk, -, hend⟩ := h.exists_walksThrough [] name
  have hends : ∃ r, WalkEnd h name chain next r := by
    cases next with
    | none => exact ⟨_, .top⟩
    | some n =>
      rcases hend n rfl with hmem | hmem | hget
      · simp at hmem
      · exact ⟨_, .circle hmem⟩
      · exact ⟨_, .gap hget⟩
  obtain ⟨r, hr⟩ := hends
  exact ⟨chain, next, hwalk, by rwa [hwalk.superclassChain_end hr]⟩

/-- **What becomes of a superclass chain.** The way up from any name ends after at most as many
classes as there are. The chain is given just if it ends at a class without a superclass, and has
the classes on the way. A class is ill-formed just if the way comes back to a class before it
comes to one that is not known, and the class that is not found is the first one of these. From any
of its classes on, a chain is the chain of that class. -/
theorem superclassChain_classifies (h : Hierarchy) (name : String) :
    (∃ chain next, chain.length ≤ h.size ∧ h.WalksThrough name chain next ∧
      WalkEnd h name chain next (h.superclassChain name)) ∧
    (∀ chain, h.superclassChain name = .ok chain ↔ h.WalksThrough name chain none) ∧
    (h.superclassChain name = .error (.classIllFormed name) ↔
      ∃ chain n, h.WalksThrough name chain (some n) ∧ n ∈ chain.map ClassFile.name) ∧
    (∀ m, h.superclassChain name = .error (.classNotFound m) ↔
      ∃ chain, h.WalksThrough name chain (some m) ∧ h.get? m = none) ∧
    ∀ before c after, h.superclassChain name = .ok (before ++ c :: after) →
      h.superclassChain c.name = .ok (c :: after) := by
  obtain ⟨chain, next, hwalk, hend⟩ := h.superclassChain_walkEnd name
  refine ⟨⟨chain, next, hwalk.length_le, hwalk, hend⟩, fun other => ⟨fun heq => ?_, ?_⟩,
    ⟨fun heq => ?_, ?_⟩, fun m => ⟨fun heq => ?_, ?_⟩, fun before c after hchain => ?_⟩
  · rw [heq] at hend
    cases hend
    exact hwalk
  · exact fun hother => hother.superclassChain_end .top
  · rw [heq] at hend
    cases hend with
    | circle hmem => exact ⟨chain, _, hwalk, hmem⟩
  · rintro ⟨other, n, hother, hmem⟩
    exact hother.superclassChain_end (.circle hmem)
  · rw [heq] at hend
    cases hend with
    | gap hget => exact ⟨chain, hwalk, hget⟩
  · rintro ⟨other, hother, hget⟩
    exact hother.superclassChain_end (.gap hget)
  · exact superclassChain_ok_iff.2 (superclassChain_ok_iff.1 hchain).of_append

end SymbolicBytecode.Hierarchy

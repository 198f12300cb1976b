import Mathlib
import SymbolicBytecode.Proofs.Superclasses

/-!
# The search for a supertype

To find out whether a class is below another one, its supertypes are visited in turn until the other
one comes up or none is left. `Search` is such a search, one turn at a time. Every turn leaves less
to do, on cyclic and incomplete hierarchies too, and the answer is the one that subtyping gives.
-/
namespace SymbolicBytecode

/-- A search for a name: the names that were visited, latest first, and those to visit, or the
answer. -/
inductive Search where
  | pending (seen queue : List String)
  | answered (found : Bool)

namespace Hierarchy

variable {h : Hierarchy} {name sub sup : String} {seen queue : List String}

/-- One turn of a search. A name may wait in the queue several times; it is left out when its turn
comes again. -/
def searchTurn (h : Hierarchy) (sup : String) : Search → Search
  | .answered found => .answered found
  | .pending _ [] => .answered false
  | .pending seen (name :: queue) =>
    if name = sup then .answered true
    else if name ∈ seen then .pending seen queue
    else .pending (name :: seen) (queue ++ h.declaredSupertypes name)

/-- Whatever a visit adds to the queue has been accounted for. -/
theorem remaining_visit_le (h : Hierarchy) (hseen : name ∉ seen) :
    h.remaining (name :: seen) + (h.declaredSupertypes name).length ≤ h.remaining seen := by
  unfold declaredSupertypes
  split
  · next c hget =>
    have hvisit := remaining_cons_of_get? hget hseen
    unfold walkCost at hvisit
    omega
  · exact h.remaining_cons_le name seen

/-- A search ends, and finds the name just if the walk over all supertypes comes to it. -/
theorem searchTurn_iterate (h : Hierarchy) (queue : List String) (hsup : sup ∉ seen) :
    ∃ turns ≤ h.remaining seen + queue.length + 1,
      (h.searchTurn sup)^[turns] (.pending seen queue) =
        .answered (decide (sup ∈ h.walk seen queue)) := by
  fun_induction walk h seen queue with
  | case1 seen =>
    refine ⟨1, by omega, ?_⟩
    simpa [searchTurn] using hsup
  | case2 seen name queue hname ih =>
    obtain ⟨turns, hturns, hanswer⟩ := ih hsup
    have hne : name ≠ sup := fun heq => hsup (heq ▸ hname)
    refine ⟨turns + 1, by rw [List.length_cons]; omega, ?_⟩
    rw [Function.iterate_succ_apply, searchTurn, if_neg hne, if_pos hname]
    exact hanswer
  | case3 seen name queue hname ih =>
    rcases eq_or_ne name sup with rfl | hne
    · have hfound : name ∈ h.walk (name :: seen) (queue ++ h.declaredSupertypes name) :=
        mem_walk_of_seen List.mem_cons_self
      exact ⟨1, by omega, by simp [searchTurn, hfound]⟩
    · obtain ⟨turns, hturns, hanswer⟩ := ih (by simp [hne.symm, hsup])
      have hvisit := h.remaining_visit_le hname
      rw [List.length_append] at hturns
      refine ⟨turns + 1, by rw [List.length_cons]; omega, ?_⟩
      rw [Function.iterate_succ_apply, searchTurn, if_neg hne, if_neg hname]
      exact hanswer

/-- Declarations lead from one name to another just if there is a path of them. -/
theorem inherits_iff_path :
    Relation.ReflTransGen h.Inherits sub sup ↔ ∃ path : List String,
      path.IsChain h.Inherits ∧ path.head? = some sub ∧ path.getLast? = some sup := by
  constructor
  · intro hsteps
    obtain ⟨path, hne, hchain, rfl, rfl⟩ :=
      List.exists_isChain_ne_nil_of_relationReflTransGen hsteps
    exact ⟨path, hchain, List.head?_eq_some_head hne, List.getLast?_eq_some_getLast hne⟩
  · rintro ⟨path, hchain, hhead, hlast⟩
    have hne : path ≠ [] := by
      rintro rfl
      cases hhead
    rw [List.head?_eq_some_head hne] at hhead
    rw [List.getLast?_eq_some_getLast hne] at hlast
    cases hhead
    cases hlast
    exact List.relationReflTransGen_of_exists_isChain path hchain hne

/-- **Subtyping is what the declarations say.** On every hierarchy the search for a supertype of a
class comes to an end, and with what it finds subtyping is settled. A class that is not an array
class is below itself, the root class and every name that a finite path of declarations leads to,
in which all but the last are known classes; and below no other. -/
theorem isSubclass_search (h : Hierarchy) {sub : String} (hsub : ¬IsArrayName sub) (sup : String) :
    (∃ turns ≤ h.remaining [] + 2, ∃ found,
      (h.searchTurn sup)^[turns] (.pending [] [sub]) = .answered found ∧
      (h.isSubclass sub sup ↔ sub = sup ∨ sup = objectClass ∨ found)) ∧
    (h.isSubclass sub sup ↔ sub = sup ∨ sup = objectClass ∨
      ∃ path : List String, path.IsChain h.Inherits ∧ path.head? = some sub ∧
        path.getLast? = some sup) := by
  have hsteps : h.isSubclass sub sup ↔
      sub = sup ∨ sup = objectClass ∨ Relation.ReflTransGen h.Inherits sub sup := by
    rw [isSubclass_iff hsub]
    refine ⟨.inr, Or.rec (fun heq => .inr (heq ▸ .refl)) id⟩
  obtain ⟨turns, hturns, hanswer⟩ :=
    h.searchTurn_iterate [sub] (List.not_mem_nil (a := sup))
  refine ⟨⟨turns, hturns, _, hanswer, ?_⟩, ?_⟩
  · rw [hsteps, decide_eq_true_iff, ← mem_reached_iff]
    rfl
  · rw [hsteps, inherits_iff_path]

/-- Two classes extend each other, and the second one implements an interface that is not known. -/
def knot : Hierarchy :=
  [bareClass "p/A" "p/B" [], bareClass "p/B" "p/A" ["p/Missing"]].foldl Hierarchy.add .empty

/-- The interface is found behind the circle, and a search for anything else still ends. -/
theorem isSubclass_search_knot :
    ¬IsArrayName "p/A" ∧ knot.isSubclass "p/A" "p/Missing" ∧
    ∃ turns, (knot.searchTurn "p/C")^[turns] (.pending [] ["p/A"]) = .answered false := by
  have hsub : ¬IsArrayName "p/A" := by decide
  have hpath : ["p/A", "p/B", "p/Missing"].IsChain knot.Inherits := by
    refine .cons_cons ⟨bareClass "p/A" "p/B" [], by decide +kernel, by decide⟩
      (.cons_cons ⟨bareClass "p/B" "p/A" ["p/Missing"], by decide +kernel, by decide⟩
        (.singleton _))
  refine ⟨hsub, (isSubclass_search knot hsub _).2.2 (.inr (.inr ⟨_, hpath, rfl, rfl⟩)), ?_⟩
  obtain ⟨turns, -, found, hanswer, hiff⟩ := (isSubclass_search knot hsub "p/C").1
  have hno : ¬knot.isSubclass "p/A" "p/C" := by decide +kernel
  cases found with
  | false => exact ⟨turns, hanswer⟩
  | true => exact absurd (hiff.2 (.inr (.inr rfl))) hno

end Hierarchy

end SymbolicBytecode

import Mathlib
import SymbolicBytecode.Proofs.SoundLoading

/-!
# The order of loading does not matter

A class that cannot be loaded may still bring in some of its supertypes: those that are asked for
before one of them fails. Which ones these are depends on the files and on the hierarchy at the
beginning alone. Loading some classes one after the other therefore ends with the same hierarchy in
any order: it has the loadable ones among the classes that are tried.
-/
namespace SymbolicBytecode

open Relation (ReflTransGen TransGen)

/-- A hierarchy is determined by what is found in it. -/
theorem Hierarchy.ext_get? {h k : Hierarchy} (hget : ∀ name, h.get? name = k.get? name) :
    h = k := by
  obtain ⟨classes, named⟩ := h
  obtain ⟨classes', named'⟩ := k
  obtain rfl : classes = classes' := Table.ext_get? hget
  rfl

namespace Classpath

variable {cp : Classpath} {h k : Hierarchy} {name next other : String} {avoided : Finset String}
  {q : Request} {r : Except LoadError ClassFile} {c : ClassFile} {l m : Loader}

/-- Supertypes that are tried lead from one class to another one, past the classes to avoid. -/
inductive Leads (cp : Classpath) (h : Hierarchy) (avoided : Finset String) : String → String → Prop
  | refl {name : String} (hname : name ∉ avoided) : Leads cp h avoided name name
  | head {name next other : String} (hname : name ∉ avoided) (htries : cp.Tries h name next)
      (hrest : Leads cp h avoided next other) : Leads cp h avoided name other

namespace Leads

theorem notMem (hleads : cp.Leads h avoided name other) : name ∉ avoided := by
  cases hleads <;> assumption

theorem steps (hleads : cp.Leads h avoided name other) : ReflTransGen (cp.Tries h) name other := by
  induction hleads with
  | refl => exact .refl
  | head _ htries _ ih => exact .head htries ih

theorem of_steps (hsteps : ReflTransGen (cp.Tries h) name other) : cp.Leads h ∅ name other := by
  induction hsteps using ReflTransGen.head_induction_on with
  | refl => exact .refl (Finset.notMem_empty _)
  | head htries _ ih => exact .head (Finset.notMem_empty _) htries ih

/-- A way either goes past one more class or comes by it for the last time. -/
theorem avoid (hleads : cp.Leads h avoided next other) (name : String) :
    cp.Leads h (insert name avoided) next other ∨ other = name ∨
      ∃ n, cp.Tries h name n ∧ cp.Leads h (insert name avoided) n other := by
  induction hleads with
  | @refl next hnext =>
    by_cases heq : next = name
    · exact .inr (.inl heq)
    · exact .inl (.refl (by simp [heq, hnext]))
  | @head next n other hnext htries hrest ih =>
    refine ih.elim (fun hpast => ?_) .inr
    by_cases heq : next = name
    · exact .inr (.inr ⟨n, heq ▸ htries, hpast⟩)
    · exact .inl (.head (by simp [heq, hnext]) htries hpast)

end Leads

namespace Extends

/-- What is tried on behalf of a class that was added is there as well. -/
theorem get?_of_tries (hextends : cp.Extends h k) (hget : k.get? name = some c)
    (htries : cp.Tries h name other) : ∃ d, k.get? other = some d := by
  obtain ⟨hnew, d, before, need, after, hprovides, hneeds, rfl, -⟩ := htries
  obtain rfl : c = d := (hextends.denotes hget).unique (.inr ⟨hnew, hprovides⟩)
  have hneed : need ∈ c.needs := by simp [hneeds]
  obtain ⟨s, hs, -⟩ := hextends.meets_needs hget hnew hneed
  exact ⟨s, hs⟩

theorem get?_of_steps (hextends : cp.Extends h k) (hget : k.get? name = some c)
    (hsteps : ReflTransGen (cp.Tries h) name other) : ∃ d, k.get? other = some d := by
  induction hsteps with
  | refl => exact ⟨c, hget⟩
  | tail _ htries ih =>
    obtain ⟨d, hd⟩ := ih
    exact hextends.get?_of_tries hd htries

/-- Two hierarchies with the same names that have grown from the same one are the same. -/
theorem unique {k' : Hierarchy} (hextends : cp.Extends h k) (hextends' : cp.Extends h k')
    (hsame : ∀ n, (∃ c, k.get? n = some c) ↔ ∃ c, k'.get? n = some c) : k = k' := by
  refine Hierarchy.ext_get? fun n => ?_
  cases hget : k.get? n with
  | some c =>
    obtain ⟨d, hd⟩ := (hsame n).1 ⟨c, hget⟩
    rw [hd, (hextends.denotes hget).unique (hextends'.denotes hd)]
  | none =>
    cases hget' : k'.get? n with
    | none => rfl
    | some d =>
      obtain ⟨c, hc⟩ := (hsame n).2 ⟨d, hget'⟩
      simp [hget] at hc

end Extends

end Classpath

/-- After the request the loadable classes are there that are tried on behalf of it. -/
def Request.Covers (cp : Classpath) (h : Hierarchy) (l m : Loader) : Request → Prop
  | load name => ∀ n, cp.Leads h l.pending name n → cp.Loadable h n →
      ∃ c, m.hierarchy.get? n = some c
  | derive name => ∀ next, cp.Tries h name next → ∀ n, cp.Leads h l.pending next n →
      cp.Loadable h n → ∃ c, m.hierarchy.get? n = some c
  | complete _ needs => ∀ before need after, needs = before ++ need :: after →
      (∀ other ∈ before, cp.Attainable h other) → ∀ n, cp.Leads h l.pending need.name n →
      cp.Loadable h n → ∃ c, m.hierarchy.get? n = some c

namespace Classpath

variable {cp : Classpath} {h : Hierarchy} {q : Request} {r : Except LoadError ClassFile}
  {name : String} {l m : Loader}

/-- A pending class is passed by: the request that it is pending for takes care of what is tried on
its behalf, since the supertype that has led back to it is the last one to be tried. -/
theorem Answers.covers (ha : cp.Answers q l r m) (hopen : q.Open cp l)
    (hextends : cp.Extends h l.hierarchy) (hled : ∀ p ∈ l.pending, q.LedFrom cp h p) :
    q.Covers cp h l m := by
  induction ha with
  | known hget => exact fun n hleads _ => hextends.get?_of_steps hget hleads.steps
  | circular hget hpending => exact fun n hleads _ => absurd hpending hleads.notMem
  | @load name r l m hget hpending hderive ih =>
    intro n hleads hloadable
    rcases hleads.avoid name with hpast | rfl | ⟨next, htries, hrest⟩
    · exact absurd (Finset.mem_insert_self _ _) hpast.notMem
    · have hload : cp.Answers (.load n) l r (m.leave n) := .load hget hpending hderive
      obtain ⟨c, hr⟩ := (hload.ok_iff hextends hled).2 hloadable
      exact ⟨c, hload.get?_of_ok hr⟩
    · exact ih (Request.open_derive hget) hextends (Request.ledFrom_enter hled) next htries n
        hrest hloadable
  | missing hfind =>
    rintro next ⟨-, c, -, -, -, hprovides, -⟩
    obtain ⟨path, bytes, hfound, -⟩ := hprovides.define
    simp [hfind] at hfound
  | undefined hfind hdefine =>
    rintro next ⟨-, c, -, -, -, hprovides, -⟩
    obtain ⟨path, bytes, hfound, hdefined⟩ := hprovides.define
    cases hfind.symm.trans hfound
    simp [hdefine] at hdefined
  | derive hfind hdefine hcomplete ih =>
    have hprovides := provides_of_define hfind hdefine
    obtain rfl := hprovides.name_eq
    rintro next ⟨-, d, before, need, after, hd, hneeds, rfl, hbefore⟩
    obtain rfl := hprovides.unique hd
    exact ih (hopen.complete hfind hdefine _) hextends hled before need after hneeds hbefore
  | add =>
    intro before need after hnil
    simp at hnil
  | @fails c first rest e l m hload ih =>
    have hled' := hopen.ledFrom hextends hled
    rintro (_ | ⟨other, before⟩) need after hneeds hbefore
    · cases hneeds
      exact ih trivial hextends hled'
    · cases hneeds
      have hfails : ¬cp.Loadable h first.name := hload.infeasible trivial hextends hled' rfl
      exact absurd (hbefore first List.mem_cons_self).1 hfails
  | @refuses c s first rest l m hload hkind ih =>
    rintro (_ | ⟨other, before⟩) need after hneeds hbefore
    · cases hneeds
      exact ih trivial hextends (hopen.ledFrom hextends hled)
    · cases hneeds
      exact absurd (hbefore first List.mem_cons_self) (hload.not_attainable hextends hkind)
  | @meets c s first rest r l m k hload hkind hrest ih ihrest =>
    have hgrows := hload.grows trivial
    have hnext := hopen.next hload hkind hgrows
    rintro (_ | ⟨other, before⟩) need after hneeds hbefore
    · cases hneeds
      intro n hleads hloadable
      obtain ⟨d, hd⟩ := ih trivial hextends (hopen.ledFrom hextends hled) n hleads hloadable
      exact ⟨d, (hrest.grows hnext).get?_eq_some hd⟩
    · cases hneeds
      have hcovers := ihrest hnext (hextends.trans hgrows) (by rwa [hload.pending_eq]) before need
        after rfl (List.forall_mem_cons.1 hbefore).2
      rwa [hload.pending_eq] at hcovers

variable {names names' : List String} {σ τ : LoadSession}

/-- Loading a class succeeds if it is loadable, and brings in the loadable ones among the classes
that are tried. -/
theorem load_tried (hextends : cp.Extends h σ.hierarchy)
    (hload : (cp.load [] name).apply σ = (r, τ)) :
    cp.Extends h τ.hierarchy ∧ ((∃ c, r = .ok c) ↔ cp.Loadable h name) ∧
      ∀ n, (∃ c, τ.hierarchy.get? n = some c) ↔ (∃ c, σ.hierarchy.get? n = some c) ∨
        cp.Loadable h n ∧ ReflTransGen (cp.Tries h) name n := by
  have hanswers := load_answers cp [] name σ
  rw [hload] at hanswers
  have hgrows : cp.Extends σ.hierarchy τ.hierarchy := hanswers.grows trivial
  refine ⟨hextends.trans hgrows, hanswers.ok_iff hextends (by simp), fun n => ⟨?_, ?_⟩⟩
  · rintro ⟨c, hget⟩
    cases hbefore : σ.hierarchy.get? n with
    | some d => exact .inl ⟨d, rfl⟩
    | none =>
      exact .inr ⟨(hextends.trans hgrows).loadable hget,
        hanswers.tried trivial hextends hget hbefore⟩
  · rintro (⟨c, hget⟩ | ⟨hloadable, hsteps⟩)
    · exact ⟨c, hgrows.get?_eq_some hget⟩
    · exact hanswers.covers trivial hextends (by simp) n (.of_steps hsteps) hloadable

theorem run_loadEach_cons (cp : Classpath) (name : String) (rest : List String)
    (σ : LoadSession) :
    (cp.loadEach (name :: rest)).run σ =
      match (cp.load [] name).apply σ with
      | (.ok _, τ) => (((cp.loadEach rest).run τ).1 + 1, ((cp.loadEach rest).run τ).2)
      | (.error e, τ) =>
        (cp.loadEach rest).run { τ with events := .notLoaded e :: τ.events } := by
  rw [loadEach, StateT.run_bind, Loading.apply]
  rcases (cp.load [] name).run.run σ with ⟨_ | _, _⟩ <;> rfl

open scoped Classical in
/-- Loading some classes one after the other, whatever has been loaded before: the loadable ones are
counted, and the loadable ones among the classes that are tried are there. -/
theorem loadEach_tried (cp : Classpath) (names : List String)
    (hextends : cp.Extends h σ.hierarchy) :
    ((cp.loadEach names).run σ).1 = names.countP (cp.Loadable h ·) ∧
    cp.Extends h ((cp.loadEach names).run σ).2.hierarchy ∧
    ∀ n, (∃ c, ((cp.loadEach names).run σ).2.hierarchy.get? n = some c) ↔
      (∃ c, σ.hierarchy.get? n = some c) ∨
        cp.Loadable h n ∧ ∃ name ∈ names, ReflTransGen (cp.Tries h) name n := by
  induction names generalizing σ with
  | nil => exact ⟨rfl, hextends, fun n => ⟨.inl, fun hget => hget.resolve_right (by simp)⟩⟩
  | cons name rest ih =>
    rw [run_loadEach_cons, List.countP_cons]
    rcases hload : (cp.load [] name).apply σ with ⟨e | c, τ⟩
    all_goals
      obtain ⟨hτ, hok, htried⟩ := load_tried hextends hload
      dsimp only
    · obtain ⟨hcount, hlast, hrest⟩ := ih (σ := { τ with events := .notLoaded e :: τ.events }) hτ
      have hfails : ¬cp.Loadable h name := by simp [← hok]
      refine ⟨by simp [hcount, hfails], hlast, fun n => ?_⟩
      rw [hrest, htried, or_assoc, ← and_or_left, List.exists_mem_cons_iff]
    · obtain ⟨hcount, hlast, hrest⟩ := ih hτ
      have hloadable : cp.Loadable h name := hok.1 ⟨c, rfl⟩
      refine ⟨by simp [hcount, hloadable], hlast, fun n => ?_⟩
      rw [hrest, htried, or_assoc, ← and_or_left, List.exists_mem_cons_iff]

theorem classNames_hierarchy (files : Files) (directories : List String) (σ : LoadSession) :
    ((classNames files directories).run σ).2.hierarchy = σ.hierarchy := by
  induction directories generalizing σ with
  | nil => rfl
  | cons directory rest ih =>
    rw [classNames]
    split
    · exact ih σ
    · exact ih _

/-- Two sessions with the same hierarchy, and the same classes in any order. -/
theorem loadEach_congr (cp : Classpath) {ρ : LoadSession} (hperm : names.Perm names')
    (hsame : ρ.hierarchy = σ.hierarchy) :
    ((cp.loadEach names).run σ).1 = ((cp.loadEach names').run ρ).1 ∧
      ((cp.loadEach names).run σ).2.hierarchy = ((cp.loadEach names').run ρ).2.hierarchy := by
  classical
  obtain ⟨hcount, hextends, htried⟩ := loadEach_tried cp names (.refl : cp.Extends σ.hierarchy _)
  obtain ⟨hcount', hextends', htried'⟩ :=
    loadEach_tried cp names' (hsame ▸ .refl : cp.Extends σ.hierarchy ρ.hierarchy)
  refine ⟨by rw [hcount, hcount', hperm.countP_eq], hextends.unique hextends' fun n => ?_⟩
  rw [htried, htried', hsame]
  simp only [hperm.mem_iff]

/-- **The order of loading does not matter.** Some classes that are loaded one after the other, as
far as they can be, are as many in any order, and the hierarchy is the same afterwards. This holds
in particular of the classes that a classpath has files for. -/
theorem loadEach_perm (cp : Classpath) (σ : LoadSession) (hperm : names.Perm names') :
    ((cp.loadEach names).run σ).1 = ((cp.loadEach names').run σ).1 ∧
    ((cp.loadEach names).run σ).2.hierarchy = ((cp.loadEach names').run σ).2.hierarchy ∧
    (((classNames cp.files cp.directories).run σ).1 = names →
      (cp.loadAll.run σ).1 = ((cp.loadEach names').run σ).1 ∧
      (cp.loadAll.run σ).2.hierarchy = ((cp.loadEach names').run σ).2.hierarchy) := by
  obtain ⟨hcount, hhierarchy⟩ := loadEach_congr cp hperm (rfl : σ.hierarchy = σ.hierarchy)
  refine ⟨hcount, hhierarchy, ?_⟩
  rintro rfl
  exact loadEach_congr cp hperm (classNames_hierarchy _ _ σ).symm

/-- The classes of a directory that is listed twice: one of three can be loaded, and the failure of
another one has brought it in before. -/
theorem loadEach_twisted :
    ((twisted.loadEach ["B", "C", "A", "B", "A", "C"]).run ⟨.empty, []⟩).1 = 2 ∧
    ((twisted.loadEach ["B", "C", "A", "B", "A", "C"]).run ⟨.empty, []⟩).2.hierarchy.classes.keys =
      ["A"] ∧
    (twisted.loadAll.run ⟨.empty, []⟩).1 = 2 ∧
    (twisted.loadAll.run ⟨.empty, []⟩).2.hierarchy.classes.keys = ["A"] := by
  have hnames : ((classNames twisted.files twisted.directories).run ⟨.empty, []⟩).1 =
      ["A", "B", "C", "A", "B", "C"] := by
    decide +kernel
  have hperm : ["A", "B", "C", "A", "B", "C"].Perm ["B", "C", "A", "B", "A", "C"] := by decide
  obtain ⟨-, -, hall⟩ := loadEach_perm twisted ⟨.empty, []⟩ hperm
  obtain ⟨hcount, hhierarchy⟩ := hall hnames
  have htwo : ((twisted.loadEach ["B", "C", "A", "B", "A", "C"]).run ⟨.empty, []⟩).1 = 2 := by
    decide +kernel
  have hkeys : ((twisted.loadEach ["B", "C", "A", "B", "A", "C"]).run
      ⟨.empty, []⟩).2.hierarchy.classes.keys = ["A"] := by
    decide +kernel
  exact ⟨htwo, hkeys, hcount.trans htwo, hhierarchy ▸ hkeys⟩

end Classpath

end SymbolicBytecode

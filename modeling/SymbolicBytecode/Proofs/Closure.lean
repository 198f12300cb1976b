import Mathlib
import SymbolicBytecode.Proofs.Abandonment

/-!
# Static stores with the superclasses of their classes

While a class is being initialized, it has an entry before its superclass has one. Once the
initialization has come to its end, each class that is not an interface has its superclass next to
it again, whether the superclass was initialized, was assumed to be or was there before.
-/
namespace SymbolicBytecode

open State (Grows)

variable {policy : InitializationPolicy} {oracle : Oracle} {s t : State} {name : String}

namespace State

/-- The static store has the superclass of each of its classes that are not interfaces. -/
def SuperclassClosed (s : State) : Prop :=
  ∀ name superName, s.hasKlass name → s.hierarchy.LeadsTo name superName → s.hasKlass superName

theorem SuperclassClosed.adding {names : List String} (hclosed : s.SuperclassClosed)
    (hhierarchy : t.hierarchy = s.hierarchy) (hsupports : s.Supports names)
    (hadded : ∀ n, t.hasKlass n ↔ s.HasKlassWith names n) : t.SuperclassClosed := by
  intro name superName hhas hleads
  rw [hhierarchy] at hleads
  rw [hadded]
  rcases (hadded name).1 hhas with hold | hnew
  · exact .inl (hclosed name superName hold hleads)
  · exact hsupports name hnew superName hleads

theorem hasKlassWith_absent {files : List ClassFile}
    (hfiles : s.hierarchy.superclassChain name = .ok files) :
    s.HasKlassWith (s.absent (files.reverse.map ClassFile.name)) name := by
  have hname := (Hierarchy.superclassChain_ok_iff.1 hfiles).name_mem
  by_cases hhas : s.hasKlass name
  · exact .inl hhas
  · refine .inr (List.mem_filter.2 ⟨?_, by simpa using hhas⟩)
    rwa [List.map_reverse, List.mem_reverse]

end State

theorem Hierarchy.LeadsTo.unique {h : Hierarchy} {superName other : String}
    (hleads : h.LeadsTo name superName) (hleads' : h.LeadsTo name other) : superName = other := by
  obtain ⟨c, hget, -, hsuper⟩ := hleads
  obtain ⟨d, hget', -, hsuper'⟩ := hleads'
  cases hget.symm.trans hget'
  exact Option.some.inj (hsuper.symm.trans hsuper')

namespace Cascade

variable {asked : List Query} {before chain assumed : List String}

theorem name_mem (hcascade : Cascade policy oracle s asked before name chain assumed) :
    name ∈ chain := by
  cases hcascade <;> exact List.mem_cons_self

/-- A class is initialized along with its superclass, or the superclass is left out for a reason. -/
theorem superclass_mem (hcascade : Cascade policy oracle s asked before name chain assumed) :
    ∀ n ∈ chain, ∀ m, s.hierarchy.LeadsTo n m → s.HasKlassWith (before ++ chain ++ assumed) m := by
  induction hcascade with
  | top hget htop =>
    intro n hn m hleads
    obtain ⟨c, hget', hclass, hsuper⟩ := hleads
    rw [List.mem_singleton.1 hn] at hget'
    cases hget.symm.trans hget'
    rcases htop with hinterface | hnone
    · exact absurd hinterface hclass
    · cases hnone.symm.trans hsuper
  | present hleads hpresent =>
    intro n hn m hleads'
    rw [List.mem_singleton.1 hn] at hleads'
    rw [← hleads.unique hleads', List.append_nil]
    exact hpresent
  | @assumed asked before name superName files hleads habsent hverdict hfiles =>
    intro n hn m hleads'
    rw [List.mem_singleton.1 hn] at hleads'
    rw [← hleads.unique hleads']
    rw [State.HasKlassWith, not_or] at habsent
    have hmem := (State.hasKlassWith_absent hfiles).resolve_left habsent.1
    have hother : superName ∉ before ++ [name] := habsent.2
    exact .inr (List.mem_append_right _ (List.mem_filter.2 ⟨hmem, by simpa using hother⟩))
  | @step asked before name superName chain assumed hleads habsent hverdict rest ih =>
    intro n hn m hleads'
    rw [List.append_cons before name chain]
    rcases List.mem_cons.1 hn with rfl | hn
    · rw [← hleads.unique hleads']
      exact .inr (by simp [rest.name_mem])
    · exact ih n hn m hleads'

theorem supports (hcascade : Cascade policy oracle s asked [] name chain assumed)
    (hassumed : s.Supports assumed) : s.Supports (chain ++ assumed) := by
  intro n hn m hleads
  rcases List.mem_append.1 hn with hn | hn
  · exact hcascade.superclass_mem n hn m hleads
  · exact (hassumed n hn m hleads).imp_right (List.mem_append_right chain)

end Cascade

namespace Exec

variable {σ τ : Session}

theorem contains_setStatuses (entries : List Staged) (statics : Table Klass) (name : String) :
    (setStatuses entries statics).contains name = statics.contains name := by
  induction entries generalizing statics with
  | nil => rfl
  | cons e rest ih =>
    rw [setStatuses, ih, Table.contains, Staged.get?_settle]
    split <;> simp [Table.contains]

theorem initializeClass_of_hasKlass (policy : InitializationPolicy) (oracle : Oracle)
    (hhas : τ.state.hasKlass name) :
    (initializeClass policy oracle name).apply τ = (.ok .already, τ) := by
  rw [initializeClass, apply_state_bind, if_pos hhas]
  rfl

/-- An initialization that comes to its end adds the class and supports what it adds. -/
theorem initializeClass_adds {r : Except ExecutionError Initialization}
    (h : (initializeClass policy oracle name).apply σ = (r, τ)) (hr : ¬Failed r) :
    ∃ names, τ.state.hierarchy = σ.state.hierarchy ∧ σ.state.Supports names ∧
      (∀ n, τ.state.hasKlass n ↔ σ.state.HasKlassWith names n) ∧
      σ.state.HasKlassWith names name := by
  cases initializeClass_course h with
  | present hhas =>
    have hnone : σ.state.Supports [] := by simp [State.Supports]
    exact ⟨[], rfl, hnone, by simp [State.HasKlassWith], .inl hhas⟩
  | undecided => exact absurd (.inl ⟨_, rfl⟩) hr
  | assumptionFails _ _ hfail => exact absurd (failInitialization_failed hfail) hr
  | stagingFails _ _ _ _ hfail => exact absurd (failInitialization_failed hfail) hr
  | assumed hstate hassume =>
    obtain ⟨files, hfiles, -, hgrows⟩ := assumeClassInitialized_ok hassume
    rw [hstate] at hfiles hgrows
    have hpart := Hierarchy.UpperPart.of_chain hfiles
    exact ⟨_, Grows.hierarchy hgrows, hpart.supports, hgrows.hasKlass_iff,
      State.hasKlassWith_absent hfiles⟩
  | staged hnew hverdict hstaged hstate =>
    obtain ⟨chain, assumed, hcascade, hgrows, -, -⟩ := hstaged
    have habsent : ¬σ.state.HasKlassWith [] name := by simpa [State.HasKlassWith] using hnew
    have hhalf := hcascade.halfDone habsent (by simp) (by simp) hgrows
    refine ⟨chain ++ assumed, ?_, hcascade.supports hhalf.supported, fun n => ?_,
      .inr (List.mem_append_left _ hcascade.name_mem)⟩
    · rw [hstate]
      exact hgrows.hierarchy
    · rw [hstate, State.hasKlass, contains_setStatuses, ← State.hasKlass, Grows.hasKlass_iff hgrows]
      simp [State.HasKlassWith]

/-- **Initialization keeps the static store closed.** If it comes to its end, the store has the
class and is closed, and to initialize the class once more changes nothing and asks nothing. If it
removes the entries that it has made when it fails, then the store is closed in every case. -/
theorem initializeClass_closed {r : Except ExecutionError Initialization}
    (hclosed : σ.state.SuperclassClosed)
    (h : (initializeClass policy oracle name).apply σ = (r, τ)) :
    ((r = .ok .already ∨ ∃ frames, r = .ok (.created frames)) →
      τ.state.SuperclassClosed ∧ τ.state.hasKlass name ∧
      ∀ policy' oracle', (initializeClass policy' oracle' name).apply τ = (.ok .already, τ)) ∧
    (policy.removeKlasses → τ.state.SuperclassClosed) := by
  have hends (hr : ¬Failed r) : τ.state.SuperclassClosed ∧ τ.state.hasKlass name := by
    obtain ⟨names, hhierarchy, hsupports, hadded, hname⟩ := initializeClass_adds h hr
    exact ⟨hclosed.adding hhierarchy hsupports hadded, (hadded name).2 hname⟩
  constructor
  · intro hr
    have hnot : ¬Failed r := by
      rcases hr with rfl | ⟨frames, rfl⟩ <;> simp [Failed]
    obtain ⟨hclosed', hhas⟩ := hends hnot
    exact ⟨hclosed', hhas, fun policy' oracle' => initializeClass_of_hasKlass policy' oracle' hhas⟩
  · intro hremoves
    by_cases hfailed : Failed r
    · obtain ⟨made, assumed, t, hhalf, hhierarchy, -, hkept, hleft⟩ :=
        initializeClass_removes hremoves h hfailed
      refine hclosed.adding hhierarchy hhalf.supported fun n => ?_
      by_cases hn : n ∈ assumed
      · obtain ⟨-, k, hget, -⟩ := hleft n hn
        exact iff_of_true (State.hasKlass_iff.2 ⟨k, hget⟩) (.inr hn)
      · rw [State.hasKlass_iff, hkept n hn, ← State.hasKlass_iff]
        simp [State.HasKlassWith, hn]
    · exact (hends hfailed).1

/-- Three of the four classes are initialized, and the topmost is assumed to be. -/
theorem initializeClass_ladder_closed :
    (ladderSession .empty).state.SuperclassClosed ∧
    ∃ τ, (initializeClass ⟨false, true⟩ (.scripted false (Table.ofList [("Root", true)]) [])
        "Leaf").apply (ladderSession .empty) = (.ok (.created 2), τ) ∧
      τ.state.statics.keys = ["Base", "Leaf", "Middle", "Root"] ∧ τ.state.SuperclassClosed ∧
      (initializeClass ⟨false, true⟩ (.fixed false) "Leaf").apply τ = (.ok .already, τ) := by
  have hclosed : (ladderSession .empty).state.SuperclassClosed := by
    intro name superName hhas
    cases hhas
  obtain ⟨hrun, hkeys⟩ : ((initializeClass ⟨false, true⟩
        (.scripted false (Table.ofList [("Root", true)]) []) "Leaf").apply
        (ladderSession .empty)).1 = .ok (.created 2) ∧
      ((initializeClass ⟨false, true⟩ (.scripted false (Table.ofList [("Root", true)]) [])
        "Leaf").apply (ladderSession .empty)).2.state.statics.keys =
          ["Base", "Leaf", "Middle", "Root"] := by
    decide +kernel
  obtain ⟨τ, hτ⟩ : ∃ τ, (initializeClass ⟨false, true⟩
      (.scripted false (Table.ofList [("Root", true)]) []) "Leaf").apply
      (ladderSession .empty) = (.ok (.created 2), τ) := ⟨_, Prod.ext hrun rfl⟩
  simp only [hτ] at hkeys
  obtain ⟨hends, -⟩ := initializeClass_closed hclosed hτ
  obtain ⟨hclosed', -, hagain⟩ := hends (.inr ⟨2, rfl⟩)
  exact ⟨hclosed, τ, hτ, hkeys, hclosed', hagain _ _⟩

end Exec

end SymbolicBytecode

import Mathlib
import SymbolicBytecode.Proofs.Changes
import SymbolicBytecode.Proofs.Initialization

/-!
# What a failed initialization leaves behind

A failed initialization may remove the static entries that it has made for the classes to be
initialized. The entries of the superclasses that it has assumed to be initialized before it
failed are not among them. `Exec.initializeClass_abandons` says what is left of both.
-/
namespace SymbolicBytecode

open Relation (TransGen)
open State (Grows GrowsTo GrowsInitialized)
open Session (ThreadChange)

namespace Hierarchy

variable {h : Hierarchy} {name other : String} {c : ClassFile} {chain files : List ClassFile}

namespace Ascent

theorem name_mem (ha : Ascent h name chain) : name ∈ chain.map ClassFile.name := by
  cases ha with
  | root hget => simp [name_of_get? hget]
  | step hget => simp [name_of_get? hget]

theorem shorter (ha : Ascent h name chain) (hbelow : TransGen h.LeadsTo name other) :
    ∃ rest, Ascent h other rest ∧ rest.length < chain.length := by
  have hstep {name other : String} {chain : List ClassFile} (ha : Ascent h name chain)
      (hleads : h.LeadsTo name other) :
      ∃ rest, Ascent h other rest ∧ rest.length < chain.length := by
    obtain ⟨c, hget, -, hsuper⟩ := hleads
    cases ha with
    | root hget' hsuper' =>
      cases hget.symm.trans hget'
      cases hsuper.symm.trans hsuper'
    | step hget' hsuper' rest =>
      cases hget.symm.trans hget'
      cases hsuper.symm.trans hsuper'
      exact ⟨_, rest, by simp⟩
  induction hbelow with
  | single hleads => exact hstep ha hleads
  | tail _ hleads ih =>
    obtain ⟨rest, hrest, hlength⟩ := ih
    obtain ⟨rest', hrest', hlength'⟩ := hstep hrest hleads
    exact ⟨rest', hrest', by omega⟩

/-- A class is not below another on whose chain it is. -/
theorem not_below (ha : Ascent h name chain) (hc : c ∈ chain) :
    ¬TransGen h.LeadsTo c.name name := by
  intro hbelow
  obtain ⟨suffix, hsuffix, hascent⟩ := ha.suffix_of_mem hc
  obtain ⟨rest, hrest, hlength⟩ := hascent.shorter hbelow
  have hle := hsuffix.length_le
  rw [hrest.unique ha] at hlength
  omega

end Ascent

theorem UpperPart.of_chain (hchain : h.superclassChain name = .ok chain) :
    h.UpperPart name chain.reverse := .inr ⟨chain, hchain, List.prefix_rfl⟩

theorem UpperPart.not_below (hpart : h.UpperPart name files)
    (hmem : other ∈ files.map ClassFile.name) : ¬TransGen h.LeadsTo other name := by
  rcases hpart with rfl | ⟨chain, hchain, hstart⟩
  · cases hmem
  · obtain ⟨c, hc, rfl⟩ := List.mem_map.1 hmem
    exact (superclassChain_ok_iff.1 hchain).not_below (List.mem_reverse.1 (hstart.subset hc))

/-- With a class its superclass is there: it comes before it. -/
theorem UpperPart.superclass_mem {superName : String} (hpart : h.UpperPart name files)
    (hmem : other ∈ files.map ClassFile.name) (hleads : h.LeadsTo other superName) :
    superName ∈ files.map ClassFile.name := by
  rcases hpart with rfl | ⟨chain, hchain, below, hbelow⟩
  · cases hmem
  obtain ⟨c, hc, rfl⟩ := List.mem_map.1 hmem
  obtain ⟨above, later, rfl⟩ := List.append_of_mem hc
  have hsplit : chain = (later ++ below).reverse ++ c :: above.reverse := by
    rw [← List.reverse_reverse chain, ← hbelow]
    simp
  have ha : Ascent h c.name (c :: above.reverse) :=
    (hsplit ▸ superclassChain_ok_iff.1 hchain).of_append
  obtain ⟨d, hd, -, hsuper⟩ := hleads
  cases (ha.get?_of_mem List.mem_cons_self).symm.trans hd
  have hrest : Ascent h superName above.reverse := by
    generalize above.reverse = rest at ha
    cases ha with
    | root _ hsuper' => cases hsuper.symm.trans hsuper'
    | step _ hsuper' rest =>
      cases hsuper.symm.trans hsuper'
      exact rest
  have hname := hrest.name_mem
  rw [List.map_reverse, List.mem_reverse] at hname
  simp [hname]

end Hierarchy

variable {policy : InitializationPolicy} {oracle : Oracle} {s t : State}
  {name superName : String} {before made assumed : List String}

/-- The superclasses that initializing the classes leads to have entries, or are among them. -/
def State.Supports (s : State) (names : List String) : Prop :=
  ∀ n ∈ names, ∀ m, s.hierarchy.LeadsTo n m → s.HasKlassWith names m

theorem Hierarchy.UpperPart.supports {files : List ClassFile}
    (hpart : s.hierarchy.UpperPart superName files) :
    s.Supports (s.absent (files.map ClassFile.name)) := by
  intro n hn m hleads
  have hm := hpart.superclass_mem (List.mem_filter.1 hn).1 hleads
  by_cases hhas : s.hasKlass m
  · exact .inl hhas
  · exact .inr (List.mem_filter.2 ⟨hm, by simpa using hhas⟩)

/-- The state in which an initialization is given up: some classes have got entries to be
initialized, and some of their superclasses are assumed to have been initialized before. -/
structure State.HalfDone (s : State) (made assumed : List String) (t : State) : Prop where
  /-- The last class may be waiting for its entry. -/
  grows : ∃ pending, Grows s (made.map (·, .notInitialized) ++ assumed.map (·, .initialized))
    ((made ++ pending).map .notInitialized ++ assumed.map .initialized) t
  made_new : ∀ n ∈ made, ¬s.hasKlass n
  assumed_new : ∀ n ∈ assumed, ¬s.hasKlass n
  disjoint : ∀ n ∈ assumed, n ∉ made
  /-- The superclass of a class that is assumed to be initialized is not one of those to be. -/
  supported : s.Supports assumed

namespace State

theorem HalfDone.of_initializing (hstate : s.Initializing made [] t)
    (hmade : ∀ n ∈ made, ¬s.hasKlass n) : s.HalfDone made [] t where
  grows := ⟨[], by simpa [Initializing] using hstate⟩
  made_new := hmade
  assumed_new := nofun
  disjoint := nofun
  supported := nofun

theorem HalfDone.of_reaches {u : Session} {σ : Session} (hreaches : s.Reaches before name σ.state)
    (hbefore : ∀ n ∈ before, ¬s.hasKlass n) (hmade : Session.Allocates σ u) :
    s.HalfDone before [] u.state where
  grows := ⟨[name], by simpa using Grows.trans hreaches hmade.grows⟩
  made_new := hbefore
  assumed_new := nofun
  disjoint := nofun
  supported := nofun

/-- None of the classes that are being initialized is among the superclasses of the one that is
assumed to be initialized. -/
theorem HalfDone.of_assumed {files : List ClassFile}
    (hpart : s.hierarchy.UpperPart superName files) (hmade : ∀ n ∈ made, ¬s.hasKlass n)
    (hbelow : ∀ n ∈ made, TransGen s.hierarchy.LeadsTo n superName)
    (hstate : s.Initializing made ((s.absent (files.map ClassFile.name)).filter (· ∉ made)) t) :
    s.HalfDone made ((s.absent (files.map ClassFile.name)).filter (· ∉ made)) t := by
  have hfilter : (s.absent (files.map ClassFile.name)).filter (· ∉ made) =
      s.absent (files.map ClassFile.name) := by
    refine List.filter_eq_self.2 fun n hn => ?_
    have habove := hpart.not_below (List.mem_filter.1 hn).1
    simpa using mt (hbelow n) habove
  rw [hfilter] at hstate ⊢
  refine ⟨⟨[], by rwa [List.append_nil]⟩, hmade, fun n hn => ?_, fun n hn hmem => ?_,
    hpart.supports⟩
  · simpa using (List.mem_filter.1 hn).2
  · exact hpart.not_below (List.mem_filter.1 hn).1 (hbelow n hmem)

theorem HalfDone.get?_of_mem (hhalf : s.HalfDone made assumed t) (hname : name ∈ assumed) :
    ¬s.hasKlass name ∧ name ∉ made ∧
      ∃ k, t.statics.get? name = some k ∧ k.status = .initialized := by
  obtain ⟨pending, hgrows⟩ := hhalf.grows
  have hentry : (name, .initialized) ∈ assumed.map fun n => (n, KlassStatus.initialized) :=
    List.mem_map_of_mem hname
  exact ⟨hhalf.assumed_new name hname, hhalf.disjoint name hname,
    hgrows.added _ (List.mem_append_right _ hentry)⟩

theorem HalfDone.status_of_mem (hhalf : s.HalfDone made assumed t) (hname : name ∈ made)
    {k : Klass} (hget : t.statics.get? name = some k) : k.status = .notInitialized := by
  obtain ⟨pending, hgrows⟩ := hhalf.grows
  have hentry : (name, .notInitialized) ∈ made.map fun n => (n, KlassStatus.notInitialized) :=
    List.mem_map_of_mem hname
  obtain ⟨k', hget', hstatus⟩ := hgrows.added _ (List.mem_append_left _ hentry)
  cases hget.symm.trans hget'
  exact hstatus

/-- Without the entries of the classes to be initialized, the other entries are as they were, but
for those of the classes that are assumed to be initialized. -/
theorem HalfDone.get?_of_notMem (hhalf : s.HalfDone made assumed t) (hname : name ∉ assumed) :
    (if name ∈ made then none else t.statics.get? name) = s.statics.get? name := by
  obtain ⟨pending, hgrows⟩ := hhalf.grows
  by_cases hmade : name ∈ made
  · rw [if_pos hmade, not_hasKlass_iff.1 (hhalf.made_new name hmade)]
  · rw [if_neg hmade]
    exact hgrows.get?_of_notMem (by simp [hmade, hname])

end State

theorem below_superclass (hbelow : ∀ n ∈ before, TransGen s.hierarchy.LeadsTo n name)
    (hleads : s.hierarchy.LeadsTo name superName) :
    ∀ n ∈ before ++ [name], TransGen s.hierarchy.LeadsTo n superName := by
  intro n hn
  rcases List.mem_append.1 hn with hn | hn
  · exact .tail (hbelow n hn) hleads
  · rw [List.mem_singleton.1 hn]
    exact .single hleads

theorem new_append (hbefore : ∀ n ∈ before, ¬s.hasKlass n) (hnew : ¬s.HasKlassWith before name) :
    ∀ n ∈ before ++ [name], ¬s.hasKlass n := by
  intro n hn
  rcases List.mem_append.1 hn with hn | hn
  · exact hbefore n hn
  · rw [List.mem_singleton.1 hn]
    exact fun hhas => hnew (.inl hhas)

theorem Cascade.halfDone {asked : List Query} {chain : List String}
    (hcascade : Cascade policy oracle s asked before name chain assumed)
    (hnew : ¬s.HasKlassWith before name) (hbefore : ∀ n ∈ before, ¬s.hasKlass n)
    (hbelow : ∀ n ∈ before, TransGen s.hierarchy.LeadsTo n name)
    (hstate : s.Initializing (before ++ chain) assumed t) :
    s.HalfDone (before ++ chain) assumed t := by
  induction hcascade with
  | top => exact .of_initializing hstate (new_append hbefore hnew)
  | present => exact .of_initializing hstate (new_append hbefore hnew)
  | @assumed asked before name superName files hleads habsent hverdict hfiles =>
    exact .of_assumed (.of_chain hfiles) (new_append hbefore hnew)
      (below_superclass hbelow hleads) hstate
  | @step asked before name superName chain assumed hleads habsent hverdict rest ih =>
    rw [List.append_cons] at hstate ⊢
    exact ih habsent (new_append hbefore hnew) (below_superclass hbelow hleads) hstate

namespace Exec

variable {σ τ : Session} {a : Abandoned} {seen : List String}

theorem stage_cons_abandons {rest : List String} (hreaches : s.Reaches before name σ.state)
    (hnew : ¬s.HasKlassWith before name) (hbefore : ∀ n ∈ before, ¬s.hasKlass n)
    (h : (stage policy oracle before (name :: rest)).apply σ = (.error a, τ)) :
    s.HalfDone a.created [] τ.state ∨
    ∃ ρ, (∃ c, s.hierarchy.get? name = some c) ∧ s.Initializing (before ++ [name]) [] ρ.state ∧
      ((stageAbove policy oracle (before ++ [name]) rest).apply ρ = (.error a, τ) ∨
        ∃ above, (stageAbove policy oracle (before ++ [name]) rest).apply ρ = (.ok above, τ) ∧
          a.created = before ++ [name] ++ above.reverse.map Staged.className) := by
  rcases stage_cons_error h with ⟨e, hcreate, rfl⟩ | ⟨ρ, hcreate, hlater⟩
  · exact .inl (.of_reaches hreaches hbefore (createKlass_error hcreate).1)
  rw [← hreaches.hasKlass_iff] at hnew
  obtain ⟨-, hknown, hentry⟩ := createKlass_ok hnew hcreate
  rw [Grows.hierarchy hreaches] at hknown
  refine .inr ⟨ρ, hknown, hreaches.initializing hentry, hlater.imp_right ?_⟩
  rintro ⟨above, e, habove, -, rfl⟩
  exact ⟨above, habove, rfl⟩

/-- The class at which a pass has failed that went no further up. -/
theorem stage_last_abandons (hreaches : s.Reaches before name σ.state)
    (hnew : ¬s.HasKlassWith before name) (hbefore : ∀ n ∈ before, ¬s.hasKlass n)
    (h : (stage policy oracle before [name]).apply σ = (.error a, τ)) :
    s.HalfDone a.created [] τ.state := by
  rcases stage_cons_abandons hreaches hnew hbefore h with
    hhalf | ⟨ρ, -, hstate, habove | ⟨above, habove, hcreated⟩⟩
  · exact hhalf
  · cases habove
  · cases habove
    rw [hcreated]
    simpa using State.HalfDone.of_initializing hstate (new_append hbefore hnew)

/-- The pass over the superclasses of a class, if it succeeds. -/
theorem stageAbove_halfDone {above : List Staged} (hstate : s.Initializing made [] σ.state)
    (hmade : ∀ n ∈ made, ¬s.hasKlass n)
    (hbelow : ∀ n ∈ made, TransGen s.hierarchy.LeadsTo n superName)
    (hseen : ∀ n, n ∈ seen ↔ n ∈ made) (hcircle : superName ∉ seen)
    (h : (stageAbove policy oracle made (s.hierarchy.walkUp seen superName)).apply σ =
      (.ok above, τ)) :
    ∃ assumed, s.HalfDone (made ++ above.reverse.map Staged.className) assumed τ.state := by
  obtain ⟨rest, hrest⟩ := Hierarchy.walkUp_of_notMem (h := s.hierarchy) hcircle
  rw [hrest] at h
  obtain ⟨needed, ρ, hneeds, hlater⟩ := stageAbove_cons_ok h
  rcases needsInitialization_ok hneeds with ⟨-, rfl, rfl⟩ | ⟨habsent, -, -, hgrows⟩
  · obtain ⟨rfl, rfl⟩ := hlater
    exact ⟨[], by simpa using State.HalfDone.of_initializing hstate hmade⟩
  cases needed with
  | false =>
    obtain ⟨rfl, rfl⟩ := hlater
    obtain ⟨files, hfiles, hgrows⟩ := hgrows
    rw [hstate.hierarchy] at hfiles
    rw [hstate.absent_eq] at hgrows
    rw [List.reverse_nil, List.map_nil, List.append_nil]
    exact ⟨_, .of_assumed (.of_chain hfiles) hmade hbelow (hstate.assume hgrows)⟩
  | true =>
    rw [hstate.hasKlass_iff] at habsent
    rw [if_pos rfl] at hgrows hlater
    rw [← hrest] at hlater
    obtain ⟨chain, assumed, hcascade, hready, hnames, -⟩ :=
      stage_walkUp (hstate.reaches hgrows) habsent hseen hlater
    rw [hnames]
    exact ⟨assumed, hcascade.halfDone habsent hmade hbelow hready⟩

/-- A pass that fails gives up what it has done by then, and names the classes that it has made
entries for. -/
theorem stage_abandons (hreaches : s.Reaches before name σ.state)
    (hnew : ¬s.HasKlassWith before name) (hbefore : ∀ n ∈ before, ¬s.hasKlass n)
    (hbelow : ∀ n ∈ before, TransGen s.hierarchy.LeadsTo n name)
    (hseen : ∀ n, n ∈ seen ↔ n ∈ before)
    (h : (stage policy oracle before (s.hierarchy.walkUp seen name)).apply σ = (.error a, τ)) :
    ∃ assumed, s.HalfDone a.created assumed τ.state := by
  fun_induction Hierarchy.walkUp s.hierarchy seen name generalizing σ τ before with
  | case1 seen name hmem => exact absurd (.inr ((hseen name).1 hmem)) hnew
  | case2 seen name hmem hget => exact ⟨[], stage_last_abandons hreaches hnew hbefore h⟩
  | case3 seen name hmem c hget hinterface =>
    exact ⟨[], stage_last_abandons hreaches hnew hbefore h⟩
  | case4 seen name hmem c hget hclass hsuper =>
    exact ⟨[], stage_last_abandons hreaches hnew hbefore h⟩
  | case5 seen name hmem c hget hclass superName hsuper ih =>
    have hleads : s.hierarchy.LeadsTo name superName := ⟨c, hget, hclass, hsuper⟩
    have hmade := new_append hbefore hnew
    have hbelow' := below_superclass hbelow hleads
    by_cases hcircle : superName ∈ name :: seen
    · rw [Hierarchy.walkUp_of_mem hcircle] at h
      exact ⟨[], stage_last_abandons hreaches hnew hbefore h⟩
    obtain ⟨rest, hrest⟩ := Hierarchy.walkUp_of_notMem (h := s.hierarchy) hcircle
    have hseen' : ∀ n, n ∈ name :: seen ↔ n ∈ before ++ [name] := by grind
    rcases stage_cons_abandons hreaches hnew hbefore h with
      hhalf | ⟨ρ, -, hstate, habove | ⟨above, habove, hcreated⟩⟩
    · exact ⟨[], hhalf⟩
    · -- the failure is further up
      rw [hrest] at habove
      rcases stageAbove_cons_error habove with ⟨cause, hneeds, rfl⟩ | ⟨ω, hneeds, hstage⟩
      · obtain ⟨⟨files, hpart, hgrows⟩, -⟩ := needsInitialization_error hneeds
        rw [hstate.hierarchy] at hpart
        rw [hstate.absent_eq] at hgrows
        exact ⟨_, .of_assumed hpart hmade hbelow' (hstate.assume hgrows)⟩
      · rcases needsInitialization_ok hneeds with ⟨-, hfalse, -⟩ | ⟨habsent, -, -, hgrows⟩
        · cases hfalse
        rw [hstate.hasKlass_iff] at habsent
        rw [if_pos rfl] at hgrows
        rw [← hrest] at hstage
        exact ih (hstate.reaches hgrows) habsent hmade hbelow' hseen' hstage
    · -- the classes further up are ready, but this one is not
      rw [hcreated]
      exact stageAbove_halfDone hstate hmade hbelow' hseen' hcircle habove

theorem failInitialization_keeps {cause : FailureCause} {r : Except ExecutionError Initialization}
    (h : (failInitialization cause).apply σ = (r, τ)) :
    τ.state.hierarchy = σ.state.hierarchy ∧ τ.state.statics = σ.state.statics ∧
      τ.state.path = σ.state.path := by
  have hmade := (failInitialization_madeOf cause).refine fun _ _ => Session.ThrowChange.steps
  refine hmade.preserves_of_apply (fun ρ =>
    ρ.state.hierarchy = σ.state.hierarchy ∧ ρ.state.statics = σ.state.statics ∧
      ρ.state.path = σ.state.path) (fun ρ π hchange hρ => ?_) ⟨rfl, rfl, rfl⟩ h
  cases hchange <;> exact hρ

/-- How an initialization comes to nothing. -/
def Failed (r : Except ExecutionError Initialization) : Prop :=
  (∃ e, r = .error e) ∨ ∃ t u, r = .ok (.failed t u)

/-- What is left of a failed initialization: what it had done, but for the entries that are removed
if that is the policy. -/
theorem initializeClass_abandons {r : Except ExecutionError Initialization}
    (h : (initializeClass policy oracle name).apply σ = (r, τ)) (hfailed : Failed r) :
    ∃ made assumed t, σ.state.HalfDone made assumed t ∧
      τ.state.hierarchy = σ.state.hierarchy ∧ τ.state.path = t.path ∧
      ∀ n, τ.state.statics.get? n =
        if policy.removeKlasses ∧ n ∈ made then none else t.statics.get? n := by
  cases initializeClass_course h with
  | present => rcases hfailed with ⟨_, hr⟩ | ⟨_, _, hr⟩ <;> cases hr
  | assumed => rcases hfailed with ⟨_, hr⟩ | ⟨_, _, hr⟩ <;> cases hr
  | staged => rcases hfailed with ⟨_, hr⟩ | ⟨_, _, hr⟩ <;> cases hr
  | undecided hstate =>
    refine ⟨[], [], σ.state, .of_initializing (Grows.refl _) nofun, ?_, ?_, ?_⟩ <;> simp [hstate]
  | @assumptionFails ρ π _ e _ hstate hassume hfail =>
    obtain ⟨hhierarchy, hstatics, hpath⟩ := failInitialization_keeps hfail
    obtain ⟨files, hpart, -, -, hgrows⟩ := assumeClassInitialized_grows hassume
    rw [hstate] at hpart hgrows
    refine ⟨[], _, π.state, .of_assumed hpart nofun nofun ?_, ?_, hpath, ?_⟩
    · simpa [State.Initializing, GrowsInitialized] using hgrows
    · rw [hhierarchy, Grows.hierarchy hgrows]
    · simp [hstatics]
  | @stagingFails ρ π ω _ a _ hnew hstage hreaches hrollBack hfail =>
    obtain ⟨hhierarchy, hstatics, hpath⟩ := failInitialization_keeps hfail
    obtain ⟨hgrows, hframes, -⟩ := stage_initializationChain_error hstage hreaches hnew
    obtain ⟨_, hrolledBack, hthread, hpath', hget⟩ := rollBack_spec policy name π hframes
    cases hrollBack.symm.trans hrolledBack
    obtain ⟨assumed, hhalf⟩ := stage_abandons hreaches
      (by simpa [State.HasKlassWith] using hnew) nofun nofun (by simp) hstage
    refine ⟨a.created, assumed, π.state, hhalf, ?_, hpath.trans hpath', ?_⟩
    · rw [hhierarchy, hthread.hierarchy, hgrows.hierarchy]
    · rw [hstatics]
      exact hget

theorem failInitialization_failed {cause : FailureCause} {r : Except ExecutionError Initialization}
    (h : (failInitialization cause).apply σ = (r, τ)) : Failed r := by
  cases r with
  | error e => exact .inl ⟨e, rfl⟩
  | ok i =>
    obtain ⟨t, u, -, rfl, -⟩ := failInitialization_ok h
    exact .inr ⟨t, u, rfl⟩

theorem initializeClass_removes {r : Except ExecutionError Initialization}
    (hremoves : policy.removeKlasses)
    (h : (initializeClass policy oracle name).apply σ = (r, τ)) (hfailed : Failed r) :
    ∃ made assumed t, σ.state.HalfDone made assumed t ∧
      τ.state.hierarchy = σ.state.hierarchy ∧ τ.state.path = t.path ∧
      (∀ n ∉ assumed, τ.state.statics.get? n = σ.state.statics.get? n) ∧
      ∀ n ∈ assumed, σ.state.statics.get? n = none ∧
        ∃ k, τ.state.statics.get? n = some k ∧ k.status = .initialized := by
  obtain ⟨made, assumed, t, hhalf, hhierarchy, hpath, hstatics⟩ :=
    initializeClass_abandons h hfailed
  refine ⟨made, assumed, t, hhalf, hhierarchy, hpath, fun n hn => ?_, fun n hn => ?_⟩
  · rw [hstatics, ← hhalf.get?_of_notMem hn]
    simp [hremoves]
  · obtain ⟨hnew, hother, hentry⟩ := hhalf.get?_of_mem hn
    rw [hstatics, if_neg (hother ·.2)]
    exact ⟨State.not_hasKlass_iff.1 hnew, hentry⟩

/-- **What a failed initialization leaves in the static store.** If entries are to be removed, then
those of the classes that were to be initialized are gone, and no other has changed. What is left
are the entries of the classes that the failed initialization has assumed to be initialized before.
So the static store is as it was if and only if there was no such assumption. -/
theorem initializeClass_residue {r : Except ExecutionError Initialization}
    (hremoves : policy.removeKlasses)
    (h : (initializeClass policy oracle name).apply σ = (r, τ)) (hfailed : Failed r) :
    ∃ clauses, τ.state.path.clauses = σ.state.path.clauses ++ clauses ∧
      (∀ n, .initialized n ∉ clauses → τ.state.statics.get? n = σ.state.statics.get? n) ∧
      (∀ n, .initialized n ∈ clauses → σ.state.statics.get? n = none ∧
        ∃ k, τ.state.statics.get? n = some k ∧ k.status = .initialized) ∧
      (τ.state.statics = σ.state.statics ↔ ∀ n, .initialized n ∉ clauses) := by
  obtain ⟨made, assumed, t, hhalf, -, hpath, hkept, hleft⟩ :=
    initializeClass_removes hremoves h hfailed
  obtain ⟨pending, hgrows⟩ := hhalf.grows
  have hclause (n : String) : .initialized n ∈
      (made ++ pending).map Clause.notInitialized ++ assumed.map .initialized ↔ n ∈ assumed := by
    simp
  refine ⟨_, by rw [hpath, hgrows.path], ?_, ?_, ?_⟩
  · intro n hn
    exact hkept n (mt (hclause n).2 hn)
  · intro n hn
    exact hleft n ((hclause n).1 hn)
  · constructor
    · intro hsame n hn
      obtain ⟨hnone, k, hget, -⟩ := hleft n ((hclause n).1 hn)
      rw [hsame, hnone] at hget
      cases hget
    · intro hnone
      exact Table.ext_get? fun n => hkept n (mt (hclause n).2 (hnone n))

/-- No class is assumed to be initialized before the oracle gives up, so nothing is left. -/
theorem initializeClass_ladder_residue :
    ∃ τ, (initializeClass ⟨false, true⟩ (.scripted false ∅ ["Base"]) "Leaf").apply
        (ladderSession .bootstrap) = (.error (.decision ⟨"no answer for Base"⟩), τ) ∧
      τ.state.statics = (ladderSession .bootstrap).state.statics := by
  obtain ⟨hrun, hpath⟩ : ((initializeClass ⟨false, true⟩ (.scripted false ∅ ["Base"]) "Leaf").apply
        (ladderSession .bootstrap)).1 = .error (.decision ⟨"no answer for Base"⟩) ∧
      ((initializeClass ⟨false, true⟩ (.scripted false ∅ ["Base"]) "Leaf").apply
        (ladderSession .bootstrap)).2.state.path.clauses =
          [.notInitialized "Leaf", .notInitialized "Middle"] := by
    decide +kernel
  obtain ⟨τ, hτ⟩ : ∃ τ, (initializeClass ⟨false, true⟩ (.scripted false ∅ ["Base"]) "Leaf").apply
      (ladderSession .bootstrap) = (.error (.decision ⟨"no answer for Base"⟩), τ) :=
    ⟨_, Prod.ext hrun rfl⟩
  simp only [hτ] at hpath
  obtain ⟨clauses, hclauses, -, -, hsame⟩ := initializeClass_residue rfl hτ (.inl ⟨_, rfl⟩)
  refine ⟨τ, hτ, hsame.2 fun n hn => ?_⟩
  have hmem : .initialized n ∈ τ.state.path.clauses := by simp [hclauses, hn]
  simp [hpath] at hmem

/-- A class above which there is another, and whose constant is in no place of its pool. -/
def flawed : ClassFile :=
  ({ ClassOutline.publicClass "Flawed" with
    superName := some "Root"
    fields := [⟨0x0018, "LIMIT", "I", some 99⟩] } : ClassOutline).build

/-- The class and its superclass are assumed to be initialized. Only the superclass can be, and its
entry is left. -/
theorem initializeClass_flawed :
    (ladderSession (Hierarchy.bootstrap.add flawed)).state.statics.keys = [] ∧
    ((initializeClass ⟨false, true⟩ (.fixed true) "Flawed").apply
      (ladderSession (Hierarchy.bootstrap.add flawed))).1 =
        .ok (.failed .verifyError .uncaught) ∧
    ((initializeClass ⟨false, true⟩ (.fixed true) "Flawed").apply
      (ladderSession (Hierarchy.bootstrap.add flawed))).2.state.statics.keys = ["Root"] := by
  decide +kernel

end Exec

end SymbolicBytecode

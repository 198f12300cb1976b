import Mathlib
import SymbolicBytecode.Proofs.Staging

/-!
# How far initialization goes up

A class is initialized together with its superclasses up to the first that is present already or is
taken to have been initialized before. `Cascade` says which these are in terms of the state before
and of the answers of the oracle, and the first pass of initialization follows it.
-/
namespace SymbolicBytecode

open State (Grows GrowsTo GrowsInitialized)

variable {policy : InitializationPolicy} {oracle : Oracle} {s : State}

/-- Initializing the class leads to its superclass: it is not an interface and has one. -/
def Hierarchy.LeadsTo (h : Hierarchy) (name superName : String) : Prop :=
  ∃ c, h.get? name = some c ∧ ¬c.isInterface ∧ c.superName = some superName

/-- The assumptions at a time when the given classes are being initialized. -/
def State.pathWith (s : State) (names : List String) : PathCondition :=
  ⟨s.path.clauses ++ names.map .notInitialized⟩

/-- Whether a class has an entry at a time when the given classes are being initialized. -/
def State.HasKlassWith (s : State) (names : List String) (name : String) : Prop :=
  s.hasKlass name ∨ name ∈ names

/-- The classes that are initialized along with a class, itself first, and the superclasses of the
last of them that are assumed to have been initialized before, root first. The classes `before` are
being initialized already, and `asked` are the questions up to then. -/
inductive Cascade (policy : InitializationPolicy) (oracle : Oracle) (s : State) :
    (asked : List Query) → (before : List String) → (name : String) →
    (chain assumed : List String) → Prop
  | top {asked : List Query} {before : List String} {name : String} {c : ClassFile}
      (hget : s.hierarchy.get? name = some c) (htop : c.isInterface ∨ c.superName = none) :
      Cascade policy oracle s asked before name [name] []
  | present {asked : List Query} {before : List String} {name superName : String}
      (hleads : s.hierarchy.LeadsTo name superName)
      (hpresent : s.HasKlassWith (before ++ [name]) superName) :
      Cascade policy oracle s asked before name [name] []
  /-- The superclass is taken to have been initialized before, and its superclasses with it. -/
  | assumed {asked : List Query} {before : List String} {name superName : String}
      {files : List ClassFile} (hleads : s.hierarchy.LeadsTo name superName)
      (habsent : ¬s.HasKlassWith (before ++ [name]) superName)
      (hverdict : (verdict policy oracle s.hierarchy asked
        ⟨superName, s.pathWith (before ++ [name])⟩).1 = .ok true)
      (hfiles : s.hierarchy.superclassChain superName = .ok files) :
      Cascade policy oracle s asked before name [name]
        ((s.absent (files.reverse.map ClassFile.name)).filter (· ∉ before ++ [name]))
  | step {asked : List Query} {before : List String} {name superName : String}
      {chain assumed : List String} (hleads : s.hierarchy.LeadsTo name superName)
      (habsent : ¬s.HasKlassWith (before ++ [name]) superName)
      (hverdict : (verdict policy oracle s.hierarchy asked
        ⟨superName, s.pathWith (before ++ [name])⟩).1 = .ok false)
      (rest : Cascade policy oracle s (verdict policy oracle s.hierarchy asked
        ⟨superName, s.pathWith (before ++ [name])⟩).2 (before ++ [name]) superName chain assumed) :
      Cascade policy oracle s asked before name (name :: chain) assumed

/-- The state in which the given classes are being initialized and others have been assumed to be
initialized before, starting from `s`. -/
def State.Initializing (s : State) (names assumed : List String) (t : State) : Prop :=
  Grows s (names.map (·, .notInitialized) ++ assumed.map (·, .initialized))
    (names.map .notInitialized ++ assumed.map .initialized) t

/-- The state in which a class is about to get its entry, after some others have. -/
def State.Reaches (s : State) (before : List String) (name : String) (t : State) : Prop :=
  Grows s (before.map (·, .notInitialized)) ((before ++ [name]).map .notInitialized) t

namespace State

variable {t : State} {names before : List String} {name : String}

theorem Initializing.hierarchy {assumed : List String} (h : s.Initializing names assumed t) :
    t.hierarchy = s.hierarchy := Grows.hierarchy h

theorem Initializing.hasKlass_iff (h : s.Initializing names [] t) (name : String) :
    t.hasKlass name ↔ s.HasKlassWith names name := by
  rw [Grows.hasKlass_iff h, HasKlassWith]
  simp

theorem Initializing.path_eq (h : s.Initializing names [] t) : t.path = s.pathWith names := by
  have hclauses := Grows.path h
  rw [List.map_nil, List.append_nil] at hclauses
  rw [pathWith, ← hclauses]

theorem Reaches.hasKlass_iff (h : s.Reaches before name t) (other : String) :
    t.hasKlass other ↔ s.HasKlassWith before other := by
  rw [Grows.hasKlass_iff h, HasKlassWith]
  simp

theorem Reaches.initializing {u : State} (h : s.Reaches before name t)
    (hentry : Grows t [(name, .notInitialized)] [] u) : s.Initializing (before ++ [name]) [] u := by
  have hgrows := Grows.trans h hentry
  unfold Initializing
  simpa using hgrows

theorem Initializing.reaches {u : State} {superName : String} (h : s.Initializing names [] t)
    (hassume : Grows t [] [.notInitialized superName] u) : s.Reaches names superName u := by
  have hgrows := Grows.trans h hassume
  unfold Reaches
  simpa using hgrows

theorem Initializing.assume {u : State} {assumed : List String} (h : s.Initializing names [] t)
    (hassume : GrowsInitialized t assumed u) : s.Initializing names assumed u := by
  have hgrows := Grows.trans h hassume
  unfold Initializing
  simpa using hgrows

theorem Initializing.absent_eq (h : s.Initializing names [] t) (others : List String) :
    t.absent others = (s.absent others).filter (· ∉ names) := by
  unfold absent
  rw [List.filter_filter]
  refine List.filter_congr fun other _ => ?_
  have hiff := h.hasKlass_iff other
  unfold HasKlassWith at hiff
  grind

theorem initializerFrame_congr (h : t.hierarchy = s.hierarchy) (name : String) :
    t.initializerFrame name = s.initializerFrame name := by
  unfold initializerFrame
  rw [h]

end State

namespace Exec

variable {σ τ : Session} {created before seen : List String} {name : String}
  {staged above : List Staged}

/-- What the first pass over a class and its superclasses has come to. -/
def StagedFrom (policy : InitializationPolicy) (oracle : Oracle) (s : State) (asked : List Query)
    (before : List String) (name : String) (staged : List Staged) (t : State) : Prop :=
  ∃ chain assumed, Cascade policy oracle s asked before name chain assumed ∧
    s.Initializing (before ++ chain) assumed t ∧ staged.reverse.map Staged.className = chain ∧
    ∀ entry ∈ staged, s.initializerFrame entry.className = .ok entry.frame

theorem StagedFrom.last {t : State} {asked : List Query} {assumed : List String}
    {frame : Option Frame} (hcascade : Cascade policy oracle s asked before name [name] assumed)
    (hstate : s.Initializing (before ++ [name]) assumed t)
    (hframe : t.initializerFrame name = .ok frame) :
    StagedFrom policy oracle s asked before name [⟨name, frame⟩] t := by
  refine ⟨[name], assumed, hcascade, hstate, rfl, fun entry hentry => ?_⟩
  rw [List.mem_singleton.1 hentry, ← State.initializerFrame_congr hstate.hierarchy]
  exact hframe

theorem StagedFrom.step {t : State} {asked : List Query} {superName : String}
    {frame : Option Frame} (hleads : s.hierarchy.LeadsTo name superName)
    (habsent : ¬s.HasKlassWith (before ++ [name]) superName)
    (hverdict : (verdict policy oracle s.hierarchy asked
      ⟨superName, s.pathWith (before ++ [name])⟩).1 = .ok false)
    (hrest : StagedFrom policy oracle s (verdict policy oracle s.hierarchy asked
      ⟨superName, s.pathWith (before ++ [name])⟩).2 (before ++ [name]) superName above t)
    (hframe : t.initializerFrame name = .ok frame) :
    StagedFrom policy oracle s asked before name (above ++ [⟨name, frame⟩]) t := by
  obtain ⟨chain, assumed, hcascade, hstate, hnames, hframes⟩ := hrest
  refine ⟨name :: chain, assumed, .step hleads habsent hverdict hcascade, ?_, ?_, ?_⟩
  · rwa [← List.append_cons] at hstate
  · rw [List.reverse_append, List.reverse_singleton, List.singleton_append, List.map_cons, hnames]
  · intro entry hentry
    rcases List.mem_append.1 hentry with hentry | hentry
    · exact hframes entry hentry
    · rw [List.mem_singleton.1 hentry, ← State.initializerFrame_congr hstate.hierarchy]
      exact hframe

theorem stage_cons_reaches {rest : List String} (hreaches : s.Reaches before name σ.state)
    (hnew : ¬s.HasKlassWith before name)
    (h : (stage policy oracle created (name :: rest)).apply σ = (.ok staged, τ)) :
    ∃ ρ π above frame, ρ.queries = σ.queries ∧ (∃ c, s.hierarchy.get? name = some c) ∧
      s.Initializing (before ++ [name]) [] ρ.state ∧
      (stageAbove policy oracle (created ++ [name]) rest).apply ρ = (.ok above, π) ∧
      τ.state.initializerFrame name = .ok frame ∧ staged = above ++ [⟨name, frame⟩] ∧
      τ.state = π.state := by
  obtain ⟨ρ, π, above, frame, hcreate, habove, hframe, rfl, hstate⟩ := stage_cons_ok h
  rw [← hreaches.hasKlass_iff] at hnew
  obtain ⟨hqueries, hknown, hentry⟩ := createKlass_ok hnew hcreate
  rw [Grows.hierarchy hreaches] at hknown
  rw [← hstate] at hframe
  exact ⟨ρ, π, above, frame, hqueries, hknown, hreaches.initializing hentry, habove, hframe, rfl,
    hstate⟩

/-- The pass that starts at a class without an entry follows its cascade. -/
theorem stage_walkUp (hreaches : s.Reaches before name σ.state)
    (hnew : ¬s.HasKlassWith before name) (hseen : ∀ n, n ∈ seen ↔ n ∈ before)
    (h : (stage policy oracle created (s.hierarchy.walkUp seen name)).apply σ = (.ok staged, τ)) :
    StagedFrom policy oracle s σ.queries before name staged τ.state := by
  -- what the walk has seen are the classes that have got their entries in this pass
  fun_induction Hierarchy.walkUp s.hierarchy seen name generalizing σ τ before created staged with
  | case1 seen name hmem => exact absurd (.inr ((hseen name).1 hmem)) hnew
  | case2 seen name hmem hget =>
    obtain ⟨_, _, _, _, -, ⟨c, hc⟩, -⟩ := stage_cons_reaches hreaches hnew h
    rw [hget] at hc
    cases hc
  | case3 seen name hmem c hget hinterface =>
    obtain ⟨ρ, π, above, frame, hqueries, -, hstate, habove, hframe, rfl, hτ⟩ :=
      stage_cons_reaches hreaches hnew h
    cases habove
    rw [← hτ] at hstate
    exact .last (.top hget (.inl hinterface)) hstate hframe
  | case4 seen name hmem c hget hclass hsuper =>
    obtain ⟨ρ, π, above, frame, hqueries, -, hstate, habove, hframe, rfl, hτ⟩ :=
      stage_cons_reaches hreaches hnew h
    cases habove
    rw [← hτ] at hstate
    exact .last (.top hget (.inr hsuper)) hstate hframe
  | case5 seen name hmem c hget hclass superName hsuper ih =>
    have hleads : s.hierarchy.LeadsTo name superName := ⟨c, hget, hclass, hsuper⟩
    obtain ⟨ρ, π, above, frame, hqueries, -, hstate, habove, hframe, rfl, hτ⟩ :=
      stage_cons_reaches hreaches hnew h
    -- on a circle the pass ends as it would at a superclass with an entry
    by_cases hcircle : superName ∈ name :: seen
    · rw [Hierarchy.walkUp_of_mem hcircle] at habove
      cases habove
      rw [← hτ] at hstate
      have hpresent : superName ∈ before ++ [name] := by grind
      exact .last (.present hleads (.inr hpresent)) hstate hframe
    obtain ⟨rest, hrest⟩ := Hierarchy.walkUp_of_notMem (h := s.hierarchy) hcircle
    rw [hrest] at habove
    obtain ⟨needed, ω, hneeds, hlater⟩ := stageAbove_cons_ok habove
    rcases needsInitialization_ok hneeds with
      ⟨hpresent, rfl, rfl⟩ | ⟨habsent, hverdict, hasked, hgrows⟩
    · obtain ⟨rfl, rfl⟩ := hlater
      rw [hstate.hasKlass_iff] at hpresent
      rw [← hτ] at hstate
      exact .last (.present hleads hpresent) hstate hframe
    rw [hstate.hasKlass_iff] at habsent
    rw [hstate.hierarchy, hstate.path_eq, hqueries] at hverdict hasked
    cases needed with
    | false =>
      obtain ⟨rfl, rfl⟩ := hlater
      obtain ⟨files, hfiles, hgrows⟩ := hgrows
      rw [hstate.hierarchy] at hfiles
      rw [hstate.absent_eq, ← hτ] at hgrows
      exact .last (.assumed hleads habsent hverdict hfiles) (hstate.assume hgrows) hframe
    | true =>
      have hseen' : ∀ n, n ∈ name :: seen ↔ n ∈ before ++ [name] := by grind
      rw [if_pos rfl] at hlater hgrows
      rw [← hrest] at hlater
      have hstaged := ih (hstate.reaches hgrows) habsent hseen' hlater
      rw [hasked, ← hτ] at hstaged
      exact .step hleads habsent hverdict hstaged hframe

end Exec

end SymbolicBytecode

import Mathlib
import SymbolicBytecode.Proofs.Initialization

/-!
# The first pass as a recursion on the static store

The first pass of initialization goes along a list of classes that has been cut where the superclass
chain would come back to a class. This is not what makes it end. A class gets its entry before its
superclass is looked at, so the pass could follow the superclasses one by one, with no list and no
look-out for circles: each call leaves fewer classes without an entry. `climb` is that recursion,
and the pass is the same.
-/
namespace SymbolicBytecode

open State (Grows GrowsTo)

variable {policy : InitializationPolicy} {oracle : Oracle}

namespace Hierarchy

variable {h : Hierarchy} {name superName : String} {seen : List String}

/-- The superclass that the initialization of a class leads to. -/
def above? (h : Hierarchy) (name : String) : Option String :=
  match h.get? name with
  | some c => if c.isInterface then none else c.superName
  | none => none

theorem above?_eq_some_iff : h.above? name = some superName ↔ h.LeadsTo name superName := by
  unfold above? LeadsTo
  cases h.get? name with
  | none => simp
  | some c => by_cases hinterface : c.isInterface <;> simp [hinterface]

theorem walkUp_eq (hseen : name ∉ seen) :
    h.walkUp seen name = name :: (match h.above? name with
      | some superName => h.walkUp (name :: seen) superName
      | none => []) := by
  rw [walkUp, dif_neg hseen, above?]
  split
  · next hget => simp [hget]
  · next c hget =>
    rw [hget]
    by_cases hinterface : c.isInterface
    · simp [hinterface]
    · cases hsuper : c.superName <;> simp [hinterface, hsuper]

end Hierarchy

/-- The known classes that have no entry. -/
def State.missing (s : State) : Finset String :=
  s.hierarchy.classes.keys.toFinset.filter (¬s.hasKlass ·)

theorem State.mem_missing {s : State} {name : String} :
    name ∈ s.missing ↔ (∃ c, s.hierarchy.get? name = some c) ∧ ¬s.hasKlass name := by
  rw [missing, Finset.mem_filter, List.mem_toFinset, Table.mem_keys_iff, Table.contains,
    Option.isSome_iff_exists]
  rfl

theorem State.GrowsTo.hasKlass {s t : State} (h : GrowsTo s t) {name : String}
    (hhas : s.hasKlass name) : t.hasKlass name := by
  obtain ⟨entries, clauses, hgrows⟩ := h
  exact (hgrows.hasKlass_iff name).2 (.inl hhas)

theorem State.GrowsTo.missing_subset {s t : State} (h : GrowsTo s t) : t.missing ⊆ s.missing := by
  intro name hname
  rw [State.mem_missing] at hname ⊢
  rw [h.hierarchy] at hname
  exact hname.imp_right fun habsent hhas => habsent (h.hasKlass hhas)

namespace Exec

/-- A call of the first pass: the session it is made in, and the class. -/
abbrev Call := Session × String

/-- One call of the first pass makes the other: the class has got its entry, and its superclass has
to be initialized along with it. -/
def Calls (policy : InitializationPolicy) (oracle : Oracle) (x y : Call) : Prop :=
  ∃ ρ, (createKlass x.2).apply x.1 = (.ok (), ρ) ∧ ρ.state.hierarchy.LeadsTo x.2 y.2 ∧
    (needsInitialization policy oracle y.2).apply ρ = (.ok true, y.1)

/-- The store has grown from one call to the other, by the class of the first at least, and not yet
by the class of the second. -/
structure Precedes (x y : Call) : Prop where
  grows : GrowsTo x.1.state y.1.state
  has : y.1.state.hasKlass x.2
  lacks : ¬y.1.state.hasKlass y.2

/-- A class has an entry after its creation, and is known if it had none. -/
theorem createKlass_grows {σ τ : Session} {name : String}
    (h : (createKlass name).apply σ = (.ok (), τ)) :
    GrowsTo σ.state τ.state ∧ τ.state.hasKlass name ∧
      (σ.state.hasKlass name ∨ ∃ c, σ.state.hierarchy.get? name = some c) := by
  by_cases hhas : σ.state.hasKlass name
  · rw [createKlass, apply_state_bind, if_pos hhas] at h
    cases h
    exact ⟨.refl _, hhas, .inl hhas⟩
  · obtain ⟨-, hknown, hgrows⟩ := createKlass_ok hhas h
    exact ⟨hgrows.growsTo, (hgrows.hasKlass_iff name).2 (.inr (by simp)), .inr hknown⟩

namespace Calls

variable {x y : Call}

theorem precedes (h : Calls policy oracle x y) : Precedes x y := by
  obtain ⟨ρ, hcreate, -, hneeds⟩ := h
  obtain ⟨hgrows, hhas, -⟩ := createKlass_grows hcreate
  obtain ⟨hnew, hgrows'⟩ := not_hasKlass_of_needed hneeds
  exact ⟨hgrows.trans hgrows', hgrows'.hasKlass hhas, hnew⟩

theorem missing_lt (h : Calls policy oracle x y) (hnew : ¬x.1.state.hasKlass x.2) :
    y.1.state.missing.card < x.1.state.missing.card := by
  have hprecedes := h.precedes
  obtain ⟨ρ, hcreate, -⟩ := h
  obtain ⟨-, -, hknown⟩ := createKlass_grows hcreate
  have hmissing : x.2 ∈ x.1.state.missing := State.mem_missing.2 ⟨hknown.resolve_left hnew, hnew⟩
  have hentered : x.2 ∉ y.1.state.missing := fun hmem =>
    (State.mem_missing.1 hmem).2 hprecedes.has
  exact Finset.card_lt_card
    ⟨hprecedes.grows.missing_subset, fun hsubset => hentered (hsubset hmissing)⟩

/-- What a call has left to do: the classes that have no entry. A call for a class that has one
already comes before those. -/
def rank (x : Call) : Nat := 2 * x.1.state.missing.card + if x.1.state.hasKlass x.2 then 1 else 0

theorem rank_lt (h : Calls policy oracle x y) : rank y < rank x := by
  have hprecedes := h.precedes
  rw [rank, rank, if_neg hprecedes.lacks]
  by_cases hhas : x.1.state.hasKlass x.2
  · have hle := Finset.card_le_card hprecedes.grows.missing_subset
    rw [if_pos hhas]
    omega
  · have hlt := h.missing_lt hhas
    omega

theorem wellFounded (policy : InitializationPolicy) (oracle : Oracle) :
    WellFounded fun y x => Calls policy oracle x y :=
  Subrelation.wf (fun h => rank_lt h) (measure rank).wf

/-- Calls that make one another are for different classes. Those had no entry at the first call,
and there are no more calls than one for each such class, and one more if it is unknown. -/
theorem chain_bounded {calls : List Call}
    (hchain : (x :: calls).IsChain (Calls policy oracle)) (hnew : ¬x.1.state.hasKlass x.2) :
    ((x :: calls).map Prod.snd).Nodup ∧ (∀ y ∈ x :: calls, ¬x.1.state.hasKlass y.2) ∧
      (x :: calls).length ≤ x.1.state.missing.card + 1 := by
  induction calls generalizing x with
  | nil => simpa using hnew
  | cons y rest ih =>
    obtain ⟨hcall, hrest⟩ := List.isChain_cons_cons.1 hchain
    have hprecedes := hcall.precedes
    obtain ⟨hnodup, habsent, hlength⟩ := ih hrest hprecedes.lacks
    refine ⟨List.nodup_cons.2 ⟨fun hmem => ?_, hnodup⟩, List.forall_mem_cons.2 ⟨hnew, ?_⟩, ?_⟩
    · obtain ⟨z, hz, hname⟩ := List.mem_map.1 hmem
      exact habsent z hz (hname ▸ hprecedes.has)
    · exact fun z hz hhas => habsent z hz (hprecedes.grows.hasKlass hhas)
    · have hlt := hcall.missing_lt hnew
      rw [List.length_cons]
      omega

end Calls

/-- Make the frame of the initialization method of a class whose superclasses have been staged. -/
def stageFrame (created : List String) (name : String) (above : List Staged) :
    Exec Abandoned (List Staged) := do
  let s ← state
  let frame ← mapError
    (⟨initializerFailure ·, created ++ [name] ++ above.reverse.map Staged.className, 0⟩)
    (liftM (s.initializerFrame name))
  note (.staged name frame.isSome)
  return above ++ [⟨name, frame⟩]

/-- The first pass as a recursion up the superclasses. It ends because each class on the way gets an
entry before its superclass is looked at. -/
def climb (policy : InitializationPolicy) (oracle : Oracle) (created : List String)
    (name : String) (σ : Session) : Except Abandoned (List Staged) × Session :=
  match _hcreate : (createKlass name).apply σ with
  | (.error e, ρ) => (.error ⟨creationFailure e, created, 0⟩, ρ)
  | (.ok _, ρ) =>
    match _habove : ρ.state.hierarchy.above? name with
    | none => (stageFrame created name []).apply ρ
    | some superName =>
      match _hneeds : (needsInitialization policy oracle superName).apply ρ with
      | (.error cause, π) => (.error ⟨cause, created ++ [name], 0⟩, π)
      | (.ok false, π) => (stageFrame created name []).apply π
      | (.ok true, π) =>
        match climb policy oracle (created ++ [name]) superName π with
        | (.error a, π) => (.error a, π)
        | (.ok above, π) => (stageFrame created name above).apply π
termination_by Calls.rank (σ, name)
decreasing_by
  exact Calls.rank_lt ⟨ρ, _hcreate, Hierarchy.above?_eq_some_iff.1 _habove, _hneeds⟩

variable {σ ρ π : Session} {created seen rest : List String} {name superName : String}

theorem apply_stage_cons (hcreate : (createKlass name).apply σ = (.ok (), ρ)) :
    (stage policy oracle created (name :: rest)).apply σ =
      (stageAbove policy oracle (created ++ [name]) rest >>= stageFrame created name).apply ρ := by
  rw [stage_cons, apply_bind, apply_mapError, hcreate]
  rfl

/-- Where the walk has been cut there is an entry, so that the pass would have ended there. -/
theorem apply_stageAbove_walkUp (hseen : ∀ n ∈ seen, ρ.state.hasKlass n) :
    (stageAbove policy oracle created (ρ.state.hierarchy.walkUp seen superName)).apply ρ =
      match (needsInitialization policy oracle superName).apply ρ with
      | (.error cause, π) => (.error ⟨cause, created, 0⟩, π)
      | (.ok false, π) => (.ok [], π)
      | (.ok true, π) =>
        (stage policy oracle created (ρ.state.hierarchy.walkUp seen superName)).apply π := by
  by_cases hcircle : superName ∈ seen
  · rw [Hierarchy.walkUp_of_mem hcircle, needsInitialization, apply_state_bind,
      if_pos (hseen _ hcircle)]
    rfl
  · obtain ⟨rest, hrest⟩ := Hierarchy.walkUp_of_notMem (h := ρ.state.hierarchy) hcircle
    rw [hrest, stageAbove, apply_bind, apply_mapError]
    rcases (needsInitialization policy oracle superName).apply ρ with ⟨_ | _ | _, π⟩ <;> rfl

/-- One level of the pass, for a class with a superclass: its entry, then the superclass if it has
to be initialized too, then the frame. -/
theorem apply_stage_walkUp (hcreate : (createKlass name).apply σ = (.ok (), ρ))
    (hseen : ∀ n ∈ seen, σ.state.hasKlass n) (hnotSeen : name ∉ seen)
    (habove : ρ.state.hierarchy.above? name = some superName) :
    (stage policy oracle created (σ.state.hierarchy.walkUp seen name)).apply σ =
      match (needsInitialization policy oracle superName).apply ρ with
      | (.error cause, π) => (.error ⟨cause, created ++ [name], 0⟩, π)
      | (.ok false, π) => (stageFrame created name []).apply π
      | (.ok true, π) => (stage policy oracle (created ++ [name])
          (ρ.state.hierarchy.walkUp (name :: seen) superName) >>= stageFrame created name).apply
            π := by
  obtain ⟨hgrows, hhas, -⟩ := createKlass_grows hcreate
  have hseen' : ∀ n ∈ name :: seen, ρ.state.hasKlass n :=
    List.forall_mem_cons.2 ⟨hhas, fun n hn => hgrows.hasKlass (hseen n hn)⟩
  have hlevel : (stage policy oracle created (σ.state.hierarchy.walkUp seen name)).apply σ =
      (stageAbove policy oracle (created ++ [name])
          (ρ.state.hierarchy.walkUp (name :: seen) superName) >>=
        stageFrame created name).apply ρ := by
    rw [← hgrows.hierarchy, Hierarchy.walkUp_eq hnotSeen, habove, apply_stage_cons hcreate]
  rw [hlevel, apply_bind, apply_stageAbove_walkUp hseen']
  rcases (needsInitialization policy oracle superName).apply ρ with ⟨_ | _ | _, π⟩
  · rfl
  · rfl
  · exact (apply_bind _ _ _).symm

/-- A level at which the superclass has to be initialized too is done if the pass over the rest of
the way is the recursion: the class has an entry by then, and so have those that have been seen. -/
theorem apply_stage_walkUp_needed (hcreate : (createKlass name).apply σ = (.ok (), ρ))
    (hseen : ∀ n ∈ seen, σ.state.hasKlass n) (hnotSeen : name ∉ seen)
    (habove : ρ.state.hierarchy.above? name = some superName)
    (hneeds : (needsInitialization policy oracle superName).apply ρ = (.ok true, π))
    (hrest : (∀ n ∈ name :: seen, π.state.hasKlass n) → ¬π.state.hasKlass superName →
      (stage policy oracle (created ++ [name])
        (π.state.hierarchy.walkUp (name :: seen) superName)).apply π =
        climb policy oracle (created ++ [name]) superName π) :
    (stage policy oracle created (σ.state.hierarchy.walkUp seen name)).apply σ =
      match climb policy oracle (created ++ [name]) superName π with
      | (.ok above, ω) => (stageFrame created name above).apply ω
      | (.error a, ω) => (.error a, ω) := by
  obtain ⟨hgrows, hhas, -⟩ := createKlass_grows hcreate
  obtain ⟨hnew, hgrows'⟩ := not_hasKlass_of_needed hneeds
  have hseen' : ∀ n ∈ name :: seen, π.state.hasKlass n := List.forall_mem_cons.2
    ⟨hgrows'.hasKlass hhas, fun n hn => hgrows'.hasKlass (hgrows.hasKlass (hseen n hn))⟩
  rw [apply_stage_walkUp hcreate hseen hnotSeen habove, hneeds]
  dsimp only
  rewrite [apply_bind, ← hgrows'.hierarchy, hrest hseen' hnew]
  rcases climb policy oracle (created ++ [name]) superName π with ⟨a | above, ω⟩
  · rfl
  · rfl

/-- The pass along the classes that have not been seen is the recursion up the superclasses, as long
as there are entries for those that have. -/
theorem stage_walkUp_eq_climb (hseen : ∀ n ∈ seen, σ.state.hasKlass n)
    (hnew : ¬σ.state.hasKlass name) :
    (stage policy oracle created (σ.state.hierarchy.walkUp seen name)).apply σ =
      climb policy oracle created name σ := by
  have hnotSeen : name ∉ seen := fun hmem => hnew (hseen name hmem)
  fun_induction climb policy oracle created name σ generalizing seen with
  | case1 created name σ e ρ hcreate =>
    rw [Hierarchy.walkUp_eq hnotSeen, stage_cons, apply_bind, apply_mapError, hcreate]
    rfl
  | case2 created name σ _ ρ hcreate habove =>
    rw [(createKlass_grows hcreate).1.hierarchy] at habove
    rw [Hierarchy.walkUp_eq hnotSeen, habove, apply_stage_cons hcreate]
    rfl
  | case3 created name σ _ ρ hcreate superName habove cause π hneeds =>
    rw [apply_stage_walkUp hcreate hseen hnotSeen habove, hneeds]
  | case4 created name σ _ ρ hcreate superName habove π hneeds =>
    rw [apply_stage_walkUp hcreate hseen hnotSeen habove, hneeds]
  | case5 created name σ _ ρ hcreate superName habove π hneeds a ω hclimb ih =>
    rw [apply_stage_walkUp_needed hcreate hseen hnotSeen habove hneeds fun hseen hnew =>
      ih hseen hnew fun hmem => hnew (hseen _ hmem), hclimb]
  | case6 created name σ _ ρ hcreate superName habove π hneeds above ω hclimb ih =>
    rw [apply_stage_walkUp_needed hcreate hseen hnotSeen habove hneeds fun hseen hnew =>
      ih hseen hnew fun hmem => hnew (hseen _ hmem), hclimb]

/-- The initialization of a class begins its first pass in the second session: the class has no
entry and is taken not to have been initialized before. -/
def BeginsPass (policy : InitializationPolicy) (oracle : Oracle) (className : String)
    (σ ι : Session) : Prop :=
  ¬σ.state.hasKlass className ∧
    ∃ ρ, (decideInitialized policy oracle className).apply σ = (.ok false, ρ) ∧
      ι = { ρ with
        state := { ρ.state with path := ρ.state.path.push (.notInitialized className) }
        events := .assumedNotInitialized className false :: ρ.events }

/-- What initialization does when the first pass has ended. -/
def conclude (policy : InitializationPolicy) (className : String)
    (r : Except Abandoned (List Staged)) : Exec ExecutionError Initialization := do
  let outcome ← attempt do
    let staged ← (liftM r : Exec Abandoned (List Staged))
    commit (staged.reverse.map Staged.className) 0 staged.reverse
  match outcome with
  | .ok frames => return .created frames
  | .error a =>
    mapError .state (rollBack policy className a)
    failInitialization a.cause

variable {ι : Session} {className : String}

theorem BeginsPass.state_eq (h : BeginsPass policy oracle className σ ι) :
    ι.state = { σ.state with path := σ.state.path.push (.notInitialized className) } := by
  obtain ⟨-, ρ, hdecide, rfl⟩ := h
  obtain ⟨events, hdecided⟩ := apply_decideInitialized policy oracle className σ
  rw [hdecided] at hdecide
  cases (Prod.mk.inj hdecide).2
  rfl

theorem BeginsPass.not_hasKlass (h : BeginsPass policy oracle className σ ι) :
    ¬ι.state.hasKlass className := by
  rw [h.state_eq]
  exact h.1

theorem initializeClass_eq_conclude (h : BeginsPass policy oracle className σ ι) {ω : Session}
    {r : Except Abandoned (List Staged)}
    (hstage : (stage policy oracle [] (σ.state.hierarchy.initializationChain className)).apply ι =
      (r, ω)) :
    (initializeClass policy oracle className).apply σ = (conclude policy className r).apply ω := by
  obtain ⟨hnew, ρ, hdecide, rfl⟩ := h
  rw [initializeClass, apply_state_bind, if_neg hnew, apply_bind, hdecide]
  dsimp only
  rw [if_neg Bool.false_ne_true, apply_note_bind, apply_bind, apply_mapError,
    assumeClassNotInitialized, apply_assume]
  dsimp only [Except.mapError]
  rewrite [apply_bind, apply_attempt, apply_bind, hstage, conclude, apply_bind, apply_attempt,
    apply_bind, apply_liftM]
  rcases r with a | staged
  · rfl
  · rfl

theorem BeginsPass.stage_eq_climb (h : BeginsPass policy oracle className σ ι) :
    (stage policy oracle [] (σ.state.hierarchy.initializationChain className)).apply ι =
      climb policy oracle [] className ι := by
  have hseen : ∀ n ∈ ([] : List String), ι.state.hasKlass n := by simp
  rw [← stage_walkUp_eq_climb hseen h.not_hasKlass, h.state_eq]
  rfl

/-- **The first pass of initialization ends on every hierarchy.** One call of the pass makes another
only if fewer classes without an entry are left, so there is no endless series of calls, with or
without a circle of superclasses. When a class is initialized, the pass is the recursion that these
calls make up. Each call of it is for another class, none of these classes had an entry when the
initialization began, and there is at most one call more than there were such classes. -/
theorem initializeClass_wellFounded (policy : InitializationPolicy) (oracle : Oracle) :
    (WellFounded fun y x => Calls policy oracle x y) ∧
    ∀ (className : String) (σ ι : Session), BeginsPass policy oracle className σ ι →
      (initializeClass policy oracle className).apply σ =
        (conclude policy className (climb policy oracle [] className ι).1).apply
          (climb policy oracle [] className ι).2 ∧
      ∀ calls : List Call, ((ι, className) :: calls).IsChain (Calls policy oracle) →
        (((ι, className) :: calls).map Prod.snd).Nodup ∧
        (∀ call ∈ (ι, className) :: calls, ¬σ.state.hasKlass call.2) ∧
        ((ι, className) :: calls).length ≤ σ.state.missing.card + 1 := by
  refine ⟨Calls.wellFounded policy oracle, fun className σ ι hbegins =>
    ⟨initializeClass_eq_conclude hbegins hbegins.stage_eq_climb, fun calls hchain => ?_⟩⟩
  have hbounded := Calls.chain_bounded hchain hbegins.not_hasKlass
  dsimp only at hbounded
  rw [hbegins.state_eq] at hbounded
  exact hbounded

/-- Two classes, each the superclass of the other. -/
def circle : Session :=
  .start (.create ([rung "Egg" (some "Hen") false, rung "Hen" (some "Egg") false].foldl
    Hierarchy.add .empty) none .ample)

/-- The pass goes from the first of the two classes to the second, and not back. -/
theorem initializeClass_circle :
    ∃ ι π, BeginsPass .standard (.fixed false) "Egg" circle ι ∧
      Calls .standard (.fixed false) (ι, "Egg") (π, "Hen") ∧
      ∀ ω, ¬Calls .standard (.fixed false) (π, "Hen") (ω, "Egg") := by
  let χ := ((decideInitialized .standard (.fixed false) "Egg").apply circle).2
  let ι : Session := { χ with
    state := { χ.state with path := χ.state.path.push (.notInitialized "Egg") }
    events := .assumedNotInitialized "Egg" false :: χ.events }
  let ρ := ((createKlass "Egg").apply ι).2
  let π := ((needsInitialization .standard (.fixed false) "Hen").apply ρ).2
  have hbegins : BeginsPass .standard (.fixed false) "Egg" circle ι :=
    ⟨by decide, χ, Prod.ext (by decide +kernel) rfl, rfl⟩
  have hcall : Calls .standard (.fixed false) (ι, "Egg") (π, "Hen") := by
    refine ⟨ρ, Prod.ext (by decide +kernel) rfl, ?_, Prod.ext (by decide +kernel) rfl⟩
    exact Hierarchy.above?_eq_some_iff.1 (by decide +kernel)
  refine ⟨ι, π, hbegins, hcall, fun ω hback => ?_⟩
  obtain ⟨-, hruns⟩ := initializeClass_wellFounded .standard (.fixed false)
  have hchain : [(ι, "Egg"), (π, "Hen"), (ω, "Egg")].IsChain
      (Calls .standard (.fixed false)) := by simp [hcall, hback]
  obtain ⟨hnodup, -⟩ := (hruns "Egg" circle ι hbegins).2 [(π, "Hen"), (ω, "Egg")] hchain
  simp at hnodup

end Exec

end SymbolicBytecode

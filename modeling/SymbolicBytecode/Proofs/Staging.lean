import Mathlib
import SymbolicBytecode.Execution.Initialization
import SymbolicBytecode.Proofs.StaticStore

/-!
# The first pass of class initialization

The pass goes up the superclasses of a class as long as they have to be initialized along with it.
`Cascade` says how far that is: for a state before the pass, without the states in between. The pass
then adds one static entry for each class on the way, and leaves the thread alone however it ends.
-/
namespace SymbolicBytecode

open State (Grows GrowsTo GrowsInitialized)

variable {policy : InitializationPolicy} {oracle : Oracle}

/-- Whether a class is taken to have been initialized before, if the oracle can tell, and the
questions asked by then, latest first. Enum classes may be forced, and then there is no question. -/
def verdict (policy : InitializationPolicy) (oracle : Oracle) (h : Hierarchy) (asked : List Query)
    (q : Query) : Except DecisionError Bool × List Query :=
  if policy.forceEnums && h.isSubclass q.className enumClass then (.ok false, asked)
  else (oracle.answer asked q, q :: asked)

/-- The failures of initialization: exceptions for the program, a full heap, an oracle without an
answer, and a text constant that is too long for an array. -/
inductive Foreseen (h : Hierarchy) (oracle : Oracle) : FailureCause → Prop
  | throws (t : Throwable) : Foreseen h oracle (.throws t)
  | exhausted : Foreseen h oracle (.fault (.state .heapMemoryExhausted))
  | undecided {asked : List Query} {q : Query} {e : DecisionError}
      (hanswer : oracle.answer asked q = .error e) : Foreseen h oracle (.fault (.decision e))
  | overlong {e : Fault} (hfault : e.IsOverlong) (hlong : ¬h.HasShortTexts) :
      Foreseen h oracle (.fault (.state e))

theorem CreationFault.foreseen {h : Hierarchy} {e : Fault}
    (hfault : CreationFault h.HasShortTexts e) (oracle : Oracle) :
    Foreseen h oracle (creationFailure e) := by
  cases hfault with
  | exhausted => exact .exhausted
  | overlong hoverlong hlong =>
    cases hoverlong with
    | negative length => exact .overlong (.negative length) hlong
    | beyond index length => exact .overlong (.beyond index length) hlong
  | _ => exact .throws _

theorem verdict_error {h : Hierarchy} {asked : List Query} {q : Query} {e : DecisionError}
    (hverdict : (verdict policy oracle h asked q).1 = .error e) :
    oracle.answer asked q = .error e := by
  unfold verdict at hverdict
  split at hverdict
  · cases hverdict
  · exact hverdict

/-- The frame of the class initialization method of a class, before it has started. -/
def IsInitializerFrame (h : Hierarchy) (className : String) (f : Frame) : Prop :=
  ∃ c m code, h.get? className = some c ∧ c.method? "<clinit>" "()V" = some m ∧
    m.accessFlags.isStatic ∧ m.code = some code ∧
    f = { signature := .initializer className, owner := c, code := code.bytes,
          handlers := code.handlers, pc := 0, returnPc := 0,
          locals := List.replicate code.maxLocals.toNat none, operands := [] }

theorem State.initializerFrame_ok {s : State} {className : String} {frame : Option Frame}
    (h : s.initializerFrame className = .ok frame) :
    ∃ c, s.hierarchy.get? className = some c ∧
      ((frame = none ∧ c.method? "<clinit>" "()V" = none) ∨
        ∃ f, frame = some f ∧ IsInitializerFrame s.hierarchy className f) := by
  unfold initializerFrame at h
  obtain ⟨c, hfind, h⟩ := except_bind_ok_iff.1 h
  have hget := Hierarchy.find_ok_iff.1 (except_mapError_ok_iff.1 hfind)
  refine ⟨c, hget, ?_⟩
  dsimp only [Signature.initializer] at h
  split at h
  · next hnone =>
    cases h
    exact .inl ⟨rfl, hnone⟩
  next m hm =>
  split at h
  · next hstatic =>
    obtain ⟨f, hf, h⟩ := except_bind_ok_iff.1 h
    cases h
    unfold Frame.create at hf
    split at hf
    · cases hf
    · next code hcode =>
      cases hf
      exact .inr ⟨_, rfl, c, m, code, hget, hm, hstatic, hcode, rfl⟩
  · cases h

theorem State.initializerFrame_error {s : State} {className : String} {c : ClassFile} {e : Fault}
    (hget : s.hierarchy.get? className = some c) (h : s.initializerFrame className = .error e) :
    ∃ t, initializerFailure e = .throws t := by
  rw [initializerFrame, Hierarchy.find_ok_iff.2 hget] at h
  rcases except_bind_error_iff.1 h with hc | ⟨_, hc, h⟩
  · cases hc
  cases hc
  dsimp only at h
  split at h
  · cases h
  next m hm =>
  split at h
  · rcases except_bind_error_iff.1 h with hf | ⟨f, -, h⟩
    · unfold Frame.create at hf
      split at hf
      · cases hf
        split <;> exact ⟨_, rfl⟩
      · cases hf
    · cases h
  · cases h
    exact ⟨_, rfl⟩

namespace Exec

variable {σ τ : Session} {className : String}

theorem apply_ask (oracle : Oracle) (className : String) (σ : Session) :
    (ask oracle className).apply σ =
      ((oracle.answer σ.queries ⟨className, σ.state.path⟩).mapError .decision,
        { σ with queries := ⟨className, σ.state.path⟩ :: σ.queries }) :=
  apply_liftM _ _

theorem apply_decideInitialized (policy : InitializationPolicy) (oracle : Oracle)
    (className : String) (σ : Session) :
    ∃ events, (decideInitialized policy oracle className).apply σ =
      ((verdict policy oracle σ.state.hierarchy σ.queries
          ⟨className, σ.state.path⟩).1.mapError .decision,
        ⟨σ.state, (verdict policy oracle σ.state.hierarchy σ.queries
          ⟨className, σ.state.path⟩).2, σ.requests, events⟩) := by
  unfold decideInitialized verdict
  rw [apply_state_bind]
  split
  · exact ⟨_, rfl⟩
  · exact ⟨σ.events, apply_ask _ _ _⟩

theorem needsInitialization_ok {needed : Bool}
    (h : (needsInitialization policy oracle className).apply σ = (.ok needed, τ)) :
    (σ.state.hasKlass className ∧ needed = false ∧ τ = σ) ∨
    ¬σ.state.hasKlass className ∧
      (verdict policy oracle σ.state.hierarchy σ.queries ⟨className, σ.state.path⟩).1 =
        .ok (!needed) ∧
      τ.queries =
        (verdict policy oracle σ.state.hierarchy σ.queries ⟨className, σ.state.path⟩).2 ∧
      if needed then Grows σ.state [] [.notInitialized className] τ.state
      else ∃ files, σ.state.hierarchy.superclassChain className = .ok files ∧
        GrowsInitialized σ.state (σ.state.absent (files.reverse.map ClassFile.name)) τ.state := by
  rw [needsInitialization, apply_state_bind] at h
  split at h
  · next hhas =>
    cases h
    exact .inl ⟨hhas, rfl, rfl⟩
  next hnew =>
  refine .inr ⟨hnew, ?_⟩
  obtain ⟨events, hdecide⟩ := apply_decideInitialized policy oracle className σ
  obtain ⟨b, ρ, hasked, h⟩ := apply_bind_ok_iff.1 h
  rw [apply_mapError_ok_iff, hdecide, Prod.mk.injEq, except_mapError_ok_iff] at hasked
  obtain ⟨hverdict, rfl⟩ := hasked
  cases b with
  | true =>
    rw [if_pos rfl, apply_note_bind] at h
    obtain ⟨_, ρ, hassume, h⟩ := apply_bind_ok_iff.1 h
    cases h
    obtain ⟨files, hfiles, hqueries, hgrows⟩ :=
      assumeClassInitialized_ok (apply_mapError_ok_iff.1 hassume)
    exact ⟨hverdict, hqueries, files, hfiles, hgrows⟩
  | false =>
    rw [if_neg Bool.false_ne_true, apply_note_bind] at h
    obtain ⟨_, ρ, hassume, h⟩ := apply_bind_ok_iff.1 h
    cases h
    cases hassume
    exact ⟨hverdict, rfl, .assume _ _⟩

theorem needsInitialization_error {cause : FailureCause}
    (h : (needsInitialization policy oracle className).apply σ = (.error cause, τ)) :
    (∃ files, σ.state.hierarchy.UpperPart className files ∧
      GrowsInitialized σ.state (σ.state.absent (files.map ClassFile.name)) τ.state) ∧
    (σ.state.hierarchy.Includes .bootstrap → Foreseen σ.state.hierarchy oracle cause) := by
  rw [needsInitialization, apply_state_bind] at h
  split at h
  · cases h
  obtain ⟨events, hdecide⟩ := apply_decideInitialized policy oracle className σ
  rcases apply_bind_error_iff.1 h with hasked | ⟨b, ρ, hasked, h⟩
  · obtain ⟨e, hfailed, rfl⟩ := apply_mapError_error_iff.1 hasked
    rw [hdecide, Prod.mk.injEq, except_mapError_error_iff] at hfailed
    obtain ⟨⟨d, hverdict, rfl⟩, rfl⟩ := hfailed
    exact ⟨⟨[], .inl rfl, Grows.refl _⟩, fun _ => .undecided (verdict_error hverdict)⟩
  rw [apply_mapError_ok_iff, hdecide, Prod.mk.injEq] at hasked
  obtain ⟨-, rfl⟩ := hasked
  cases b with
  | true =>
    rw [if_pos rfl, apply_note_bind] at h
    rcases apply_bind_error_iff.1 h with hassume | ⟨_, ρ, -, h⟩
    · obtain ⟨e, hfailed, rfl⟩ := apply_mapError_error_iff.1 hassume
      obtain ⟨files, hfiles, -, -, hgrows⟩ := assumeClassInitialized_grows hfailed
      have hfault := assumeClassInitialized_error hfailed
      exact ⟨⟨files, hfiles, hgrows⟩, fun hb => (hfault hb).foreseen oracle⟩
    · cases h
  | false => cases h

/-- The superclasses of a class that has just got its entry, if they have to be initialized too. -/
def stageAbove (policy : InitializationPolicy) (oracle : Oracle) (created : List String) :
    List String → Exec Abandoned (List Staged)
  | [] => return []
  | superName :: rest => do
    let needed ← mapError (⟨·, created, 0⟩) (needsInitialization policy oracle superName)
    if needed then stage policy oracle created (superName :: rest) else return []

/-- One class of the pass: its entry, then its superclasses, then its frame. -/
theorem stage_cons (policy : InitializationPolicy) (oracle : Oracle) (created : List String)
    (className : String) (rest : List String) :
    stage policy oracle created (className :: rest) = (do
      mapError (⟨creationFailure ·, created, 0⟩) (createKlass className)
      let above ← stageAbove policy oracle (created ++ [className]) rest
      let s ← state
      let frame ← mapError
        (⟨initializerFailure ·, created ++ [className] ++ above.reverse.map Staged.className, 0⟩)
        (liftM (s.initializerFrame className))
      note (.staged className frame.isSome)
      return above ++ [⟨className, frame⟩]) := by
  rw [stage]
  refine bind_congr fun _ => ?_
  cases rest with
  | nil => rfl
  | cons superName rest =>
    dsimp only [stageAbove]
    rw [bind_assoc]
    refine bind_congr fun needed => ?_
    cases needed <;> rfl

variable {created names : List String} {staged above : List Staged} {a : Abandoned}

theorem stage_cons_ok {rest : List String}
    (h : (stage policy oracle created (className :: rest)).apply σ = (.ok staged, τ)) :
    ∃ ρ π above frame, (createKlass className).apply σ = (.ok (), ρ) ∧
      (stageAbove policy oracle (created ++ [className]) rest).apply ρ = (.ok above, π) ∧
      π.state.initializerFrame className = .ok frame ∧ staged = above ++ [⟨className, frame⟩] ∧
      τ.state = π.state := by
  rw [stage_cons] at h
  obtain ⟨_, ρ, hcreate, h⟩ := apply_bind_ok_iff.1 h
  obtain ⟨above, π, habove, h⟩ := apply_bind_ok_iff.1 h
  rw [apply_state_bind] at h
  obtain ⟨frame, π', hframe, h⟩ := apply_bind_ok_iff.1 h
  rw [apply_mapError_ok_iff, apply_liftM, Prod.mk.injEq] at hframe
  obtain ⟨hmade, rfl⟩ := hframe
  cases h
  exact ⟨ρ, π, above, frame, apply_mapError_ok_iff.1 hcreate, habove, hmade, rfl, rfl⟩

theorem stage_cons_error {rest : List String}
    (h : (stage policy oracle created (className :: rest)).apply σ = (.error a, τ)) :
    (∃ e, (createKlass className).apply σ = (.error e, τ) ∧ a = ⟨creationFailure e, created, 0⟩) ∨
    ∃ ρ, (createKlass className).apply σ = (.ok (), ρ) ∧
      ((stageAbove policy oracle (created ++ [className]) rest).apply ρ = (.error a, τ) ∨
        ∃ above e, (stageAbove policy oracle (created ++ [className]) rest).apply ρ =
            (.ok above, τ) ∧
          τ.state.initializerFrame className = .error e ∧
          a = ⟨initializerFailure e, created ++ [className] ++ above.reverse.map Staged.className,
            0⟩) := by
  rw [stage_cons] at h
  rcases apply_bind_error_iff.1 h with hcreate | ⟨_, ρ, hcreate, h⟩
  · obtain ⟨e, hfailed, rfl⟩ := apply_mapError_error_iff.1 hcreate
    exact .inl ⟨e, hfailed, rfl⟩
  refine .inr ⟨ρ, apply_mapError_ok_iff.1 hcreate, ?_⟩
  rcases apply_bind_error_iff.1 h with habove | ⟨above, π, habove, h⟩
  · exact .inl habove
  rw [apply_state_bind] at h
  rcases apply_bind_error_iff.1 h with hframe | ⟨frame, π, -, h⟩
  · obtain ⟨e, hfailed, rfl⟩ := apply_mapError_error_iff.1 hframe
    rw [apply_liftM, Prod.mk.injEq] at hfailed
    obtain ⟨he, rfl⟩ := hfailed
    exact .inr ⟨above, e, habove, he, rfl⟩
  · cases h

theorem stageAbove_cons_ok {superName : String} {rest : List String}
    (h : (stageAbove policy oracle created (superName :: rest)).apply σ = (.ok above, τ)) :
    ∃ needed ρ, (needsInitialization policy oracle superName).apply σ = (.ok needed, ρ) ∧
      if needed then (stage policy oracle created (superName :: rest)).apply ρ = (.ok above, τ)
      else above = [] ∧ τ = ρ := by
  rw [stageAbove] at h
  obtain ⟨needed, ρ, hneeds, h⟩ := apply_bind_ok_iff.1 h
  refine ⟨needed, ρ, apply_mapError_ok_iff.1 hneeds, ?_⟩
  cases needed with
  | true => exact h
  | false =>
    cases h
    exact ⟨rfl, rfl⟩

theorem stageAbove_cons_error {superName : String} {rest : List String}
    (h : (stageAbove policy oracle created (superName :: rest)).apply σ = (.error a, τ)) :
    (∃ cause, (needsInitialization policy oracle superName).apply σ = (.error cause, τ) ∧
      a = ⟨cause, created, 0⟩) ∨
    ∃ ρ, (needsInitialization policy oracle superName).apply σ = (.ok true, ρ) ∧
      (stage policy oracle created (superName :: rest)).apply ρ = (.error a, τ) := by
  rw [stageAbove] at h
  rcases apply_bind_error_iff.1 h with hneeds | ⟨needed, ρ, hneeds, h⟩
  · obtain ⟨cause, hfailed, rfl⟩ := apply_mapError_error_iff.1 hneeds
    exact .inl ⟨cause, hfailed, rfl⟩
  cases needed with
  | true => exact .inr ⟨ρ, apply_mapError_ok_iff.1 hneeds, h⟩
  | false => cases h

theorem not_hasKlass_of_needed
    (h : (needsInitialization policy oracle className).apply σ = (.ok true, τ)) :
    ¬τ.state.hasKlass className ∧ GrowsTo σ.state τ.state := by
  rcases needsInitialization_ok h with ⟨-, hfalse, -⟩ | ⟨hnew, -, -, hgrows⟩
  · cases hfalse
  · rw [if_pos rfl] at hgrows
    exact ⟨by simpa [hgrows.hasKlass_iff] using hnew, hgrows.growsTo⟩

/-- However the pass over these classes ends, the state only grows. If it fails, no frame has been
pushed, and the failure is one that initialization is prepared for. -/
def StagesSafely (policy : InitializationPolicy) (oracle : Oracle) (names : List String) : Prop :=
  ∀ ⦃created : List String⦄ ⦃σ τ : Session⦄ ⦃r : Except Abandoned (List Staged)⦄,
    (∀ name ∈ names.head?, ¬σ.state.hasKlass name) →
    (stage policy oracle created names).apply σ = (r, τ) →
    GrowsTo σ.state τ.state ∧ ∀ a, r = .error a →
      a.frames = 0 ∧
        (σ.state.hierarchy.Includes .bootstrap → Foreseen σ.state.hierarchy oracle a.cause)

theorem StagesSafely.stageAbove (hsafe : StagesSafely policy oracle names)
    {r : Except Abandoned (List Staged)}
    (h : (stageAbove policy oracle created names).apply σ = (r, τ)) :
    GrowsTo σ.state τ.state ∧ ∀ a, r = .error a →
      a.frames = 0 ∧
        (σ.state.hierarchy.Includes .bootstrap → Foreseen σ.state.hierarchy oracle a.cause) := by
  cases names with
  | nil =>
    cases h
    exact ⟨.refl _, fun a ha => by cases ha⟩
  | cons superName rest =>
    rcases r with a | above
    · rcases stageAbove_cons_error h with ⟨cause, hneeds, rfl⟩ | ⟨ρ, hneeds, hstage⟩
      · obtain ⟨⟨files, -, hgrows⟩, hforeseen⟩ := needsInitialization_error hneeds
        refine ⟨Grows.growsTo hgrows, fun a ha => ?_⟩
        cases ha
        exact ⟨rfl, hforeseen⟩
      · obtain ⟨hnew, hgrows⟩ := not_hasKlass_of_needed hneeds
        obtain ⟨hgrows', herror⟩ := hsafe (by simpa using hnew) hstage
        rw [hgrows.hierarchy] at herror
        exact ⟨hgrows.trans hgrows', herror⟩
    · refine ⟨?_, fun a ha => by cases ha⟩
      obtain ⟨needed, ρ, hneeds, hrest⟩ := stageAbove_cons_ok h
      cases needed with
      | true =>
        obtain ⟨hnew, hgrows⟩ := not_hasKlass_of_needed hneeds
        exact hgrows.trans (hsafe (by simpa using hnew) hrest).1
      | false =>
        obtain ⟨-, rfl⟩ := hrest
        rcases needsInitialization_ok hneeds with ⟨-, -, rfl⟩ | ⟨-, -, -, files, -, hgrows⟩
        · exact .refl _
        · exact Grows.growsTo hgrows

theorem stage_safely (policy : InitializationPolicy) (oracle : Oracle) (names : List String) :
    StagesSafely policy oracle names := by
  -- a failure above a class is passed on, and the frame of the class is made last
  induction names with
  | nil =>
    intro created σ τ r _ h
    cases h
    exact ⟨.refl _, fun a ha => by cases ha⟩
  | cons name rest ih =>
    intro created σ τ r hnew h
    have hnew : ¬σ.state.hasKlass name := hnew name rfl
    rcases r with a | staged
    · rcases stage_cons_error h with ⟨e, hcreate, rfl⟩ | ⟨ρ, hcreate, hlater⟩
      · obtain ⟨hmade, hfault⟩ := createKlass_error hcreate
        refine ⟨hmade.grows.growsTo, fun a ha => ?_⟩
        cases ha
        exact ⟨rfl, fun hb => (hfault hb).foreseen oracle⟩
      obtain ⟨-, ⟨c, hget⟩, hgrows⟩ := createKlass_ok hnew hcreate
      rcases hlater with habove | ⟨above, e, habove, hframe, rfl⟩
      · obtain ⟨hgrows', herror⟩ := ih.stageAbove habove
        rw [hgrows.hierarchy] at herror
        exact ⟨hgrows.growsTo.trans hgrows', herror⟩
      · have hgrown := hgrows.growsTo.trans (ih.stageAbove habove).1
        refine ⟨hgrown, fun a' ha => ?_⟩
        cases ha
        obtain ⟨t, ht⟩ := State.initializerFrame_error (hgrown.hierarchy ▸ hget) hframe
        exact ⟨rfl, fun _ => ht ▸ .throws t⟩
    · obtain ⟨ρ, π, above, frame, hcreate, habove, -, -, hstate⟩ := stage_cons_ok h
      obtain ⟨-, -, hgrows⟩ := createKlass_ok hnew hcreate
      rw [hstate]
      exact ⟨hgrows.growsTo.trans (ih.stageAbove habove).1, fun a ha => by cases ha⟩

end Exec

end SymbolicBytecode

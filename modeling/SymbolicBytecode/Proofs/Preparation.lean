import Mathlib
import SymbolicBytecode.Proofs.Abandonment

/-!
# The steps of an initialization

An initialization changes the status of a class only as long as nothing has come of it: the frame of
its class initialization method is pushed, it becomes initialized without one, or its entry is taken
away again. `Session.InitializationChange` says so, and `Exec.initializeClass_madeOf` that there is
nothing else to it but entries and exceptions.
-/
namespace SymbolicBytecode

open Relation (ReflTransGen)
open State (Grows)

variable {policy : InitializationPolicy} {oracle : Oracle}

/-- What the initialization of classes is made of. -/
inductive Session.InitializationChange (policy : InitializationPolicy) : Session → Session → Prop
  | entry {σ τ : Session} (h : EntryChange σ τ) : InitializationChange policy σ τ
  | throw {σ τ : Session} (h : ThrowChange σ τ) : InitializationChange policy σ τ
  /-- The class initialization method of a class is about to run. -/
  | start (σ : Session) {name : String} {k : Klass} {f : Frame}
      (hget : σ.state.statics.get? name = some k) (hstatus : k.status = .notInitialized)
      (hframe : IsInitializerFrame σ.state.hierarchy name f) :
      InitializationChange policy σ
        { σ with
          state := { σ.state with
            stack := f :: resumingHere σ.state.stack
            statics := σ.state.statics.insert name { k with status := .initializing } }
          events := .framePushed f.signature :: σ.events }
  /-- A class without a class initialization method is initialized. -/
  | settle (σ : Session) {name : String} {k : Klass} (hget : σ.state.statics.get? name = some k)
      (hstatus : k.status = .notInitialized) :
      InitializationChange policy σ { σ with state := { σ.state with
        statics := σ.state.statics.insert name { k with status := .initialized } } }
  | withdraw (σ : Session) {name : String} (hremoves : policy.removeKlasses)
      (hstatus : ∀ k, σ.state.statics.get? name = some k → k.status = .notInitialized) :
      InitializationChange policy σ { σ with state := { σ.state with
        statics := σ.state.statics.erase name } }

open Session (EntryChange ThrowChange InitializationChange)

namespace Exec

variable {ε α : Type} {className : String} {σ τ : Session}

theorem MadeOf.entry {x : Exec ε α} (h : MadeOf EntryChange x) :
    MadeOf (InitializationChange policy) x := h.mono fun _ _ => .entry

theorem MadeOf.throws {x : Exec ε α} (h : MadeOf ThrowChange x) :
    MadeOf (InitializationChange policy) x := h.mono fun _ _ => .throw

section FirstPass

theorem decideInitialized_madeOf (policy : InitializationPolicy) (oracle : Oracle)
    (className : String) : MadeOf EntryChange (decideInitialized policy oracle className) := by
  refine .bind .state fun s => ?_
  split
  · exact .bind (fun σ => .single (.report σ (by simp [Event.IsRemark]))) fun _ => .pure _
  · intro σ
    rw [apply_ask]
    exact .single (.ask σ _)

/-- A class that has to be initialized has just been assumed not to be. -/
theorem needsInitialization_steps {r : Except FailureCause Bool}
    (h : (needsInitialization policy oracle className).apply σ = (r, τ)) :
    (r ≠ .ok true ∧ ReflTransGen EntryChange σ τ) ∨
      ∃ ρ, r = .ok true ∧ ReflTransGen EntryChange σ ρ ∧ ¬ρ.state.hasKlass className ∧
        τ = ρ.assuming (.notInitialized className) := by
  rw [needsInitialization, apply_state_bind] at h
  split at h
  · cases h
    exact .inl ⟨by simp, .refl⟩
  next hnew =>
  obtain ⟨events, hdecide⟩ := apply_decideInitialized policy oracle className σ
  have hsteps : ReflTransGen EntryChange σ _ :=
    (decideInitialized_madeOf policy oracle className).of_apply hdecide
  rw [apply_bind, apply_mapError, hdecide] at h
  cases hverdict : (verdict policy oracle σ.state.hierarchy σ.queries
      ⟨className, σ.state.path⟩).1 with
  | error e =>
    rw [hverdict] at h
    cases h
    exact .inl ⟨by simp, hsteps⟩
  | ok initialized =>
    rw [hverdict] at h
    dsimp only [Except.mapError] at h
    cases initialized with
    | true =>
      rw [if_pos rfl, apply_note_bind, apply_bind, apply_mapError] at h
      have hsteps' := hsteps.tail (.report _ (e := .assumedInitialized className true)
        (by simp [Event.IsRemark]))
      rcases hassume : (assumeClassInitialized className).apply _ with ⟨e | _, ρ⟩
      all_goals
        rw [hassume] at h
        cases h
        exact .inl ⟨by simp, hsteps'.trans ((assumeClassInitialized_madeOf _).of_apply hassume)⟩
    | false =>
      have hsteps' := hsteps.tail (.report _ (e := .assumedNotInitialized className true)
        (by simp [Event.IsRemark]))
      cases h
      exact .inr ⟨_, rfl, hsteps', hnew, rfl⟩

/-- The pass over some classes, the first of which has just been assumed not to be initialized. -/
def StageSteps (policy : InitializationPolicy) (oracle : Oracle) (names : List String) : Prop :=
  ∀ ⦃created : List String⦄ ⦃σ : Session⦄ ⦃name : String⦄, names.head? = some name →
    ¬σ.state.hasKlass name → ReflTransGen EntryChange σ
      ((stage policy oracle created names).apply (σ.assuming (.notInitialized name))).2

theorem StageSteps.stageAbove {names : List String} (hstage : StageSteps policy oracle names)
    (created : List String) : MadeOf EntryChange (stageAbove policy oracle created names) := by
  cases names with
  | nil => exact .pure _
  | cons superName rest =>
    intro σ
    rw [Exec.stageAbove, apply_bind, apply_mapError]
    rcases hneeds : (needsInitialization policy oracle superName).apply σ with ⟨e | needed, τ⟩
    · rcases needsInitialization_steps hneeds with ⟨-, hsteps⟩ | ⟨ρ, htrue, -⟩
      · exact hsteps
      · cases htrue
    · rcases needsInitialization_steps hneeds with ⟨hfalse, hsteps⟩ | ⟨ρ, htrue, hsteps, hnew, rfl⟩
      · cases needed with
        | true => exact absurd rfl hfalse
        | false => exact hsteps
      · cases htrue
        exact hsteps.trans (hstage rfl hnew)

theorem stage_steps (policy : InitializationPolicy) (oracle : Oracle) (names : List String) :
    StageSteps policy oracle names := by
  induction names with
  | nil =>
    intro created σ name hname
    cases hname
  | cons name rest ih =>
    intro created σ name' hname hnew
    cases hname
    have hdeclare : EntryChange σ
      ((createKlass name).apply (σ.assuming (.notInitialized name))).2 := .declare σ hnew
    rw [stage_cons, apply_bind, apply_mapError]
    rcases hcreate : (createKlass name).apply (σ.assuming (.notInitialized name)) with ⟨e | _, ρ⟩
    · rw [hcreate] at hdeclare
      exact .single hdeclare
    · rw [hcreate] at hdeclare
      refine .head hdeclare ?_
      refine (ih.stageAbove _).bind (fun above => ?_) ρ
      refine .bind .state fun s => .bind (.mapError (.lift _) _) fun frame => ?_
      exact .bind (fun σ => .single (.report σ (by simp [Event.IsRemark]))) fun _ => .pure _

end FirstPass

section SecondPass

/-- Each class has the status for the step to come: no class is met twice. -/
theorem commit_steps {entries : List Staged} (created : List String) (frames : Nat)
    (hnodup : (entries.map Staged.className).Nodup)
    (hstatus : ∀ e ∈ entries, ∃ k, σ.state.statics.get? e.className = some k ∧
      k.status = .notInitialized)
    (hframes : ∀ e ∈ entries, σ.state.initializerFrame e.className = .ok e.frame) :
    ReflTransGen (InitializationChange policy) σ ((commit created frames entries).apply σ).2 := by
  induction entries generalizing σ frames with
  | nil => exact .refl
  | cons e rest ih =>
    obtain ⟨hnotMem, hnodup⟩ := List.nodup_cons.1 hnodup
    obtain ⟨⟨k, hget, hk⟩, hstatus⟩ := List.forall_mem_cons.1 hstatus
    obtain ⟨hframe, hframes⟩ := List.forall_mem_cons.1 hframes
    rw [apply_commit_cons created frames rest hget]
    refine .head ?_ (ih _ hnodup (fun d hd => ?_) fun d hd => ?_)
    · rw [Staged.settle, hget]
      rcases State.initializerFrame_declares hframe with ⟨hnone, -⟩ | ⟨f, hsome, -, hf⟩
      · rw [Staged.status, hnone]
        exact .settle σ hget hk
      · rw [Staged.status, hsome]
        exact .start σ hget hk hf
    · have hne : d.className ≠ e.className := fun heq => hnotMem (heq ▸ List.mem_map_of_mem hd)
      rw [Staged.get?_settle, if_neg hne]
      exact hstatus d hd
    · rw [← hframes d hd]
      exact State.initializerFrame_congr rfl _

theorem removeKlasses_steps {names : List String} (hremoves : policy.removeKlasses)
    (hstatus : ∀ n ∈ names, ∀ k, σ.state.statics.get? n = some k → k.status = .notInitialized) :
    ReflTransGen (InitializationChange policy) σ ((removeKlasses names).apply σ).2 := by
  induction names generalizing σ with
  | nil => exact .refl
  | cons name rest ih =>
    obtain ⟨hname, hrest⟩ := List.forall_mem_cons.1 hstatus
    refine .head (.withdraw σ hremoves hname) (ih fun n hn k hget => ?_)
    rw [Table.get?_erase] at hget
    split at hget
    · cases hget
    · exact hrest n hn k hget

theorem rollBack_steps {a : Abandoned} (className : String) (hframes : a.frames = 0)
    (hstatus : ∀ n ∈ a.created, ∀ k, σ.state.statics.get? n = some k →
      k.status = .notInitialized) :
    ReflTransGen (InitializationChange policy) σ ((rollBack policy className a).apply σ).2 := by
  have hnote (τ : Session) (removed : Bool) : InitializationChange policy τ { τ with
      events := .initializationFailed className a.frames removed a.created.length :: τ.events } :=
    .throw (.report τ (by simp [Event.IsRemark]))
  rw [rollBack, hframes, popFrames, pure_bind]
  by_cases hremoves : policy.removeKlasses
  · have hsteps : ReflTransGen (InitializationChange policy) σ _ := removeKlasses_steps hremoves
      fun n hn => hstatus n (List.mem_reverse.1 hn)
    obtain ⟨statics, hremove, -⟩ := apply_removeKlasses a.created.reverse σ
    rw [hremove] at hsteps
    rw [if_pos hremoves, apply_bind, hremove, ← hframes]
    exact hsteps.tail (hnote _ _)
  · rw [if_neg hremoves, ← hframes]
    exact .single (hnote σ _)

end SecondPass

/-- The two passes over a class without an entry and its superclasses. If the first of them is given
up, nothing has come of the entries that it has made. -/
theorem passes_steps {r : Except Abandoned Nat} (hnew : ¬σ.state.hasKlass className)
    (h : (do
      let staged ← stage policy oracle [] (σ.state.hierarchy.initializationChain className)
      commit (staged.reverse.map Staged.className) 0 staged.reverse : Exec Abandoned Nat).apply
        (σ.assuming (.notInitialized className)) = (r, τ)) :
    ReflTransGen (InitializationChange policy) σ τ ∧ ∀ a, r = .error a → a.frames = 0 ∧
      ∀ n ∈ a.created, ∀ k, τ.state.statics.get? n = some k → k.status = .notInitialized := by
  have hreaches : σ.state.Reaches [] className (σ.assuming (.notInitialized className)).state :=
    Grows.assume σ.state _
  have habsent : ¬σ.state.HasKlassWith [] className := by simpa [State.HasKlassWith] using hnew
  obtain ⟨rest, hrest⟩ := Hierarchy.walkUp_of_notMem (h := σ.state.hierarchy)
    (List.not_mem_nil (a := className))
  have hsteps : ReflTransGen EntryChange σ ((stage policy oracle []
      (σ.state.hierarchy.initializationChain className)).apply
        (σ.assuming (.notInitialized className))).2 :=
    stage_steps policy oracle _ (by rw [Hierarchy.initializationChain, hrest]; rfl) hnew
  rw [apply_bind] at h
  rcases hstage : (stage policy oracle [] (σ.state.hierarchy.initializationChain className)).apply
      (σ.assuming (.notInitialized className)) with ⟨a | staged, π⟩
  · rw [hstage] at h hsteps
    cases h
    obtain ⟨-, hframes, -⟩ := stage_initializationChain_error hstage hreaches hnew
    obtain ⟨assumed, hhalf⟩ := stage_abandons hreaches habsent (by simp) (by simp) (by simp) hstage
    refine ⟨ReflTransGen.mono (fun _ _ => .entry) _ _ hsteps, fun a' ha => ?_⟩
    cases ha
    exact ⟨hframes, fun n hn k hget => hhalf.status_of_mem hn hget⟩
  · rw [hstage] at h hsteps
    have hstaged := stage_walkUp hreaches habsent (by simp) hstage
    have hklass : ∀ e ∈ staged.reverse, π.state.hasKlass e.className :=
      fun e he => hstaged.hasKlass (List.mem_reverse.1 he)
    obtain ⟨events, hcommit⟩ := apply_commit (staged.reverse.map Staged.className) 0 hklass
    obtain ⟨chain, assumed, hcascade, hgrows, rfl, hframes⟩ := hstaged
    have hrun : ReflTransGen (InitializationChange policy) π ((commit
        (staged.reverse.map Staged.className) 0 staged.reverse).apply π).2 := by
      refine commit_steps _ _ (hcascade.nodup List.not_mem_nil).2 (fun e he => ?_) fun e he => ?_
      · have hentry : (e.className, .notInitialized) ∈
            ([] ++ staged.reverse.map Staged.className).map fun n =>
              (n, KlassStatus.notInitialized) :=
          List.mem_map_of_mem (List.mem_append_right _ (List.mem_map_of_mem he))
        exact Grows.added hgrows _ (List.mem_append_left _ hentry)
      · rw [State.initializerFrame_congr hgrows.hierarchy]
        exact hframes e (List.mem_reverse.1 he)
    dsimp only at h
    rw [hcommit] at h hrun
    cases h
    refine ⟨(ReflTransGen.mono (fun _ _ => .entry) _ _ hsteps).trans hrun, fun a ha => ?_⟩
    cases ha

theorem initializeClass_madeOf (policy : InitializationPolicy) (oracle : Oracle)
    (className : String) :
    MadeOf (InitializationChange policy) (initializeClass policy oracle className) := by
  refine .state_bind fun σ => ?_
  split
  · exact .refl
  next hnew =>
  obtain ⟨events, hdecide⟩ := apply_decideInitialized policy oracle className σ
  have hsteps : ReflTransGen (InitializationChange policy) σ _ :=
    (decideInitialized_madeOf policy oracle className).entry.of_apply hdecide
  rw [apply_bind, hdecide]
  cases (verdict policy oracle σ.state.hierarchy σ.queries ⟨className, σ.state.path⟩).1 with
  | error e => exact hsteps
  | ok initialized =>
    refine hsteps.trans ?_
    dsimp only [Except.mapError]
    cases initialized with
    | true =>
      refine (remark_madeOf (by simp [Event.IsRemark])).throws.bind (fun _ => ?_) _
      refine (assumeClassInitialized_madeOf className).entry.attempt.bind fun r => ?_
      split
      · exact .pure _
      · exact (failInitialization_madeOf _).throws
    | false =>
      rw [if_neg Bool.false_ne_true, apply_note_bind]
      refine .head (.throw (.report _ (e := .assumedNotInitialized className false)
        (by simp [Event.IsRemark]))) ?_
      rw [apply_bind, apply_mapError, assumeClassNotInitialized, apply_assume]
      dsimp only [Except.mapError]
      rw [apply_bind, apply_attempt]
      generalize hrun : (do
        let staged ← stage policy oracle [] (σ.state.hierarchy.initializationChain className)
        commit (staged.reverse.map Staged.className) 0 staged.reverse : Exec Abandoned Nat).apply
          _ = result
      obtain ⟨r, π⟩ := result
      obtain ⟨hpasses, hgivenUp⟩ := passes_steps (σ := { σ with
        queries := (verdict policy oracle σ.state.hierarchy σ.queries ⟨className, σ.state.path⟩).2
        events := _ :: events }) hnew hrun
      refine hpasses.trans ?_
      cases r with
      | ok frames => exact .refl
      | error a =>
        obtain ⟨hframes, hstatus⟩ := hgivenUp a rfl
        have hundone : ReflTransGen (InitializationChange policy) π _ :=
          rollBack_steps className hframes hstatus
        obtain ⟨ω, hrollBack, -⟩ := rollBack_spec policy className π hframes
        dsimp only
        rw [apply_bind, apply_mapError, hrollBack]
        rw [hrollBack] at hundone
        exact hundone.trans ((failInitialization_madeOf a.cause).throws ω)

theorem ensureKlass_madeOf (policy : InitializationPolicy) (oracle : Oracle) (className : String) :
    MadeOf (InitializationChange policy) (ensureKlass policy oracle className) := by
  refine (initializeClass_madeOf policy oracle className).bind fun i => ?_
  split <;> exact .pure _

end Exec

end SymbolicBytecode

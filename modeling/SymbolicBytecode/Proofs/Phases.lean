import Mathlib
import SymbolicBytecode.Proofs.Invocation
import SymbolicBytecode.Proofs.Preparation

/-!
# The steps of a call

Only one phase of a call initializes classes, and only the last one pushes a frame: for a method
that the current frame refers to by its name, unless the method is overridden from outside.
`Session.PhaseChange` has the steps of all calls, with each initialization as one of them, and
`Session.EngineChange` those in turn. `Exec.Prompt` is about the phases that neither initialize a
class nor wait for one.
-/
namespace SymbolicBytecode

open Relation (ReflTransGen)

/-- The class refers to a method of this name. -/
def ClassFile.Mentions (c : ClassFile) (name : String) : Prop :=
  ∃ index member, c.pool.memberRef index = .ok member ∧ member.kind ≠ .field ∧ member.name = name

/-- The method reference of the current instruction is resolved to the method of the call. -/
def State.Resolves (s : State) (kind : InvokeKind) (i : Invocation) : Prop :=
  ∃ f member, s.currentReference = .ok (f, member) ∧ kind.accepts member.kind ∧
    i.kind = kind ∧ i.pc = f.pc ∧
    s.hierarchy.resolveMethod f.owner.name ⟨member.className, member.name, member.descriptor⟩
      (member.kind == .interfaceMethod) = .ok i.method

theorem State.Resolves.kind_eq {s : State} {kind : InvokeKind} {i : Invocation}
    (h : s.Resolves kind i) : i.kind = kind := by
  obtain ⟨_, _, -, -, hkind, -⟩ := h
  exact hkind

theorem State.Resolves.mentions {s t : State} {kind : InvokeKind} {i : Invocation}
    (h : s.Resolves kind i) (hsame : t.stack = s.stack) :
    ∃ f rest, t.stack = f :: rest ∧ f.owner.Mentions i.method.signature.name := by
  obtain ⟨f, member, hreference, haccepts, -, -, hmethod⟩ := h
  obtain ⟨⟨rest, hstack⟩, index, -, hmember⟩ := currentReference_ok hreference
  obtain ⟨className, hsignature⟩ := Hierarchy.resolveMethod_signature hmethod
  refine ⟨f, rest, hsame.trans hstack, index, member, hmember, ?_, by rw [hsignature]; rfl⟩
  intro hfield
  rw [hfield] at haccepts
  cases kind <;> cases haccepts

/-- Push the frame of a method, with the latest operands as its arguments. -/
def Exec.callMethod (count : Nat) (signature : Signature) (offset : Nat) : Exec Fault Unit := do
  let args ← popOperands count
  pushFrame signature false offset args

namespace Session

/-- What a call is made of when no class is initialized. -/
inductive CallChange (strategies : Strategies) : Session → Session → Prop
  | throw {σ τ : Session} (h : ThrowChange σ τ) : CallChange strategies σ τ
  | patch (σ : Session) (pc : Nat) (opcode : UInt8) : CallChange strategies σ
      ((Exec.updateFrame fun f => do return ((), ← f.patch pc opcode)).apply σ).2
  | call (σ : Session) (count : Nat) (signature : Signature) (offset : Nat)
      (hmentions : strategies = .standard →
        ∃ f rest, σ.state.stack = f :: rest ∧ f.owner.Mentions signature.name) :
      CallChange strategies σ ((Exec.callMethod count signature offset).apply σ).2

/-- What the execution of instructions is made of, if each initialization is one step. -/
inductive PhaseChange (policy : InitializationPolicy) (oracle : Oracle)
    (strategies : Strategies) : Session → Session → Prop
  | initialization (σ : Session) (name : String) :
      PhaseChange policy oracle strategies σ
        ((Exec.initializeClass policy oracle name).apply σ).2
  | call {σ τ : Session} (h : CallChange strategies σ τ) : PhaseChange policy oracle strategies σ τ

/-- What the execution of instructions is made of. -/
inductive EngineChange (policy : InitializationPolicy) (strategies : Strategies) :
    Session → Session → Prop
  | initialization {σ τ : Session} (h : InitializationChange policy σ τ) :
      EngineChange policy strategies σ τ
  | call {σ τ : Session} (h : CallChange strategies σ τ) : EngineChange policy strategies σ τ

theorem PhaseChange.steps {policy : InitializationPolicy} {oracle : Oracle}
    {strategies : Strategies} {σ τ : Session} (h : PhaseChange policy oracle strategies σ τ) :
    ReflTransGen (EngineChange policy strategies) σ τ := by
  cases h with
  | initialization name =>
    exact ReflTransGen.mono (fun _ _ => .initialization) _ _
      (Exec.initializeClass_madeOf policy oracle name σ)
  | call h => exact .single (.call h)

end Session

open Session (ThrowChange InitializationChange CallChange PhaseChange EngineChange)

namespace Exec

variable {ε α β : Type} {policy : InitializationPolicy} {oracle : Oracle}
  {strategies : Strategies} {kind : InvokeKind} {i : Invocation} {σ τ : Session}

theorem MadeOf.callChange {x : Exec ε α} (h : MadeOf ThrowChange x) :
    MadeOf (CallChange strategies) x := h.mono fun _ _ => .throw

theorem MadeOf.phaseChange {x : Exec ε α} (h : MadeOf ThrowChange x) :
    MadeOf (PhaseChange policy oracle strategies) x := h.callChange.mono fun _ _ => .call

/-- From this session on the operation takes the steps of a call without initialization, and it does
not end by waiting for initialization methods. -/
def Prompt (strategies : Strategies) (x : Exec Interrupt α) (σ : Session) : Prop :=
  ReflTransGen (CallChange strategies) σ (x.apply σ).2 ∧
    ∀ k, (x.apply σ).1 ≠ .error (.deferred k)

namespace Prompt

variable {x : Exec Interrupt α}

theorem of_ok (hx : MadeOf (CallChange strategies) x) {a : α} (ha : x.apply σ = (.ok a, τ)) :
    Prompt strategies x σ := by
  refine ⟨hx σ, fun k hk => ?_⟩
  rw [ha] at hk
  cases hk

theorem of_unchanged {a : α} (ha : x.apply σ = (.ok a, σ)) : Prompt strategies x σ := by
  unfold Prompt
  rw [ha]
  exact ⟨.refl, fun k hk => by cases hk⟩

theorem ne_deferred (h : Prompt strategies x σ) {k : Nat} :
    x.apply σ ≠ (.error (.deferred k), τ) :=
  fun hx => h.2 k (by rw [hx])

theorem pure (a : α) : Prompt strategies (Pure.pure a : Exec Interrupt α) σ := of_unchanged rfl

theorem fault (e : ExecutionError) :
    Prompt strategies (throw (.fault e) : Exec Interrupt α) σ :=
  ⟨.refl, fun k hk => by cases hk⟩

theorem mapError {x : Exec ε α} (hx : MadeOf (CallChange strategies) x) {g : ε → Interrupt}
    (hg : ∀ e k, g e ≠ .deferred k) : Prompt strategies (Exec.mapError g x) σ := by
  refine ⟨hx σ, fun k hk => ?_⟩
  obtain ⟨e, -, he⟩ := except_mapError_error_iff.1 hk
  exact hg e k he

theorem bind {f : α → Exec Interrupt β} (hx : Prompt strategies x σ)
    (hf : ∀ a τ, x.apply σ = (.ok a, τ) → Prompt strategies (f a) τ) :
    Prompt strategies (x >>= f) σ := by
  unfold Prompt at hx ⊢
  rw [apply_bind]
  rcases hr : x.apply σ with ⟨e | a, τ⟩
  · rw [hr] at hx
    refine ⟨hx.1, fun k hk => hx.2 k ?_⟩
    cases hk
    rfl
  · rw [hr] at hx
    obtain ⟨hsteps, hprompt⟩ := hf a τ hr
    exact ⟨hx.1.trans hsteps, hprompt⟩

theorem state_bind {f : State → Exec Interrupt β} (hf : Prompt strategies (f σ.state) σ) :
    Prompt strategies (Exec.state >>= f) σ := by
  unfold Prompt
  rwa [apply_state_bind]

theorem attempt_bind {x : Exec ε α} {f : Except ε α → Exec Interrupt β}
    (hx : MadeOf (CallChange strategies) x)
    (hf : ∀ r τ, x.apply σ = (r, τ) → Prompt strategies (f r) τ) :
    Prompt strategies (attempt x >>= f) σ :=
  bind (of_ok hx.attempt rfl) fun r τ hr => by
    cases hr
    exact hf _ _ rfl

theorem note_bind {e : Event} (hremark : e.IsRemark) {f : Unit → Exec Interrupt β}
    (hf : ∀ τ, Prompt strategies (f ()) τ) : Prompt strategies (note e >>= f) σ :=
  bind (of_ok (remark_madeOf hremark).callChange rfl) fun _ τ _ => hf τ

theorem interruptWith (t : Throwable) (σ : Session) :
    Prompt strategies (interruptWith t : Exec Interrupt α) σ := by
  refine attempt_bind (createAndThrow_madeOf t).callChange fun r τ _ => ?_
  split
  · exact ⟨.refl, fun k hk => by cases hk⟩
  · exact fault _

end Prompt

theorem interruptWith_ne_ok {t : Throwable} {a : α} :
    (interruptWith t : Exec Interrupt α).apply σ ≠ (.ok a, τ) := by
  intro h
  obtain ⟨r, ρ, -, h⟩ := apply_bind_ok_iff.1 h
  split at h <;> cases h

theorem resolvePhase_prompt (kind : InvokeKind) (σ : Session) :
    Prompt strategies (resolvePhase kind) σ := by
  refine .state_bind ?_
  split
  · split
    · exact .note_bind (by simp [Event.IsRemark]) fun τ => .interruptWith _ τ
    · exact .note_bind (by simp [Event.IsRemark]) fun τ => .interruptWith _ τ
    · exact .fault _
  · dsimp only
    split
    · exact .note_bind (by simp [Event.IsRemark]) fun τ => .interruptWith _ τ
    split
    · exact .interruptWith _ σ
    split
    · exact .note_bind (by simp [Event.IsRemark]) fun τ => .interruptWith _ τ
    · exact .note_bind (by simp [Event.IsRemark]) fun τ => .pure _

theorem resolvePhase_ok (h : (resolvePhase kind).apply σ = (.ok i, τ)) :
    τ.state = σ.state ∧ τ.queries = σ.queries ∧ σ.state.Resolves kind i ∧
      ∃ f rest, σ.state.stack = f :: rest ∧ i.accessor = f.owner.name := by
  have hnoted {e : Event} {t : Throwable} {ρ : Session} :
      (do note e; interruptWith t : Exec Interrupt Invocation).apply ρ ≠ (.ok i, τ) := by
    rw [apply_note_bind]
    exact interruptWith_ne_ok
  rw [resolvePhase, apply_state_bind] at h
  split at h
  · split at h
    · exact absurd h hnoted
    · exact absurd h hnoted
    · cases h
  next f member hreference =>
  dsimp only at h
  split at h
  · exact absurd h hnoted
  next haccepts =>
  split at h
  · exact absurd h interruptWith_ne_ok
  split at h
  · exact absurd h hnoted
  next method hmethod =>
  cases h
  obtain ⟨⟨rest, hstack⟩, -⟩ := State.currentReference_ok hreference
  have haccepts : kind.accepts member.kind := by simpa using haccepts
  exact ⟨rfl, rfl, ⟨f, member, hreference, haccepts, rfl, rfl, hmethod⟩, f, rest, hstack, rfl⟩

theorem checkPhase_prompt (strategies : Strategies) (i : Invocation) (σ : Session) :
    Prompt strategies (checkPhase strategies i) σ := by
  refine .state_bind ?_
  split
  · exact .interruptWith _ σ
  · exact .pure _

theorem checkPhase_ok {u : Unit} (h : (checkPhase strategies i).apply σ = (.ok u, τ)) :
    τ = σ ∧ strategies.check σ.state i = none := by
  rw [checkPhase, apply_state_bind] at h
  split at h
  · exact absurd h interruptWith_ne_ok
  · next hnone =>
    cases h
    exact ⟨rfl, hnone⟩

theorem preparePhase_madeOf (policy : InitializationPolicy) (oracle : Oracle) (i : Invocation) :
    MadeOf (PhaseChange policy oracle strategies) (preparePhase policy oracle i) := by
  have hwhole (name : String) :
      MadeOf (PhaseChange policy oracle strategies) (initializeClass policy oracle name) :=
    fun σ => .single (.initialization σ name)
  unfold preparePhase
  split
  · refine (hwhole _).attempt.bind fun r => ?_
    split
    · split
      · exact .throw _
      · exact .pure _
    · exact .throw _
    · exact .pure _
    · refine (createAndThrow_madeOf _).phaseChange.attempt.bind fun r => ?_
      split <;> exact .throw _
    · exact .throw _
  · exact .pure _

/-- The class of a static method is ready before the method is selected. -/
theorem preparePhase_cases {u : Unit} (h : (preparePhase policy oracle i).apply σ = (.ok u, τ)) :
    i.kind ≠ .static ∧ τ = σ ∨
    i.kind = .static ∧ ∃ outcome, (outcome = .already ∨ outcome = .created 0) ∧
      (initializeClass policy oracle i.method.signature.className).apply σ = (.ok outcome, τ) := by
  unfold preparePhase at h
  split at h
  · next hstatic =>
    refine .inr ⟨hstatic, ?_⟩
    rw [apply_bind, apply_attempt] at h
    rcases hrun : (initializeClass policy oracle i.method.signature.className).apply σ with
      ⟨e | outcome, ρ⟩
    · rw [hrun] at h
      dsimp only at h
      split at h
      · next hok => cases hok
      · next hok => cases hok
      · next hok => cases hok
      · exact absurd h interruptWith_ne_ok
      · cases h
    · rw [hrun] at h
      cases outcome with
      | already =>
        cases h
        exact ⟨_, .inl rfl, rfl⟩
      | failed t u => cases h
      | created frames =>
        dsimp only at h
        split at h
        · cases h
        · next hnone =>
          cases h
          obtain rfl := Nat.eq_zero_of_not_pos hnone
          exact ⟨_, .inr rfl, rfl⟩
  · next hinstance =>
    cases h
    exact .inl ⟨hinstance, rfl⟩

theorem preparePhase_ok {u : Unit} (h : (preparePhase policy oracle i).apply σ = (.ok u, τ)) :
    σ.state.SameThread τ.state := by
  rcases preparePhase_cases h with ⟨-, rfl⟩ | ⟨-, outcome, hready, hrun⟩
  · exact ⟨rfl, rfl, rfl⟩
  · exact initializeClass_ready hrun hready

theorem lookup_madeOf (i : Invocation) {step : Session → Session → Prop} :
    MadeOf step (lookup i) := by
  have hreceiver : MadeOf step (receiverClassName i) := by
    refine .bind .state fun s => .bind (.lift _) fun arity => .bind (.lift _) fun f => ?_
    split
    · split
      · exact .pure _
      · exact .lift _
    · exact .throw _
  refine .bind .state fun s => ?_
  split
  · exact .pure _
  · exact .pure _
  · exact hreceiver.bind fun _ => .pure _
  · exact hreceiver.bind fun _ => .pure _

theorem lookup_implements {m : Implementation} (h : (lookup i).apply σ = (.ok (.ok m), τ)) :
    σ.state.hierarchy.ImplementsAs i.method.signature m := by
  rw [lookup, apply_state_bind] at h
  split at h
  · exact Hierarchy.implements_of_lookupStatic (Except.ok.inj (Prod.mk.inj h).1)
  · exact Hierarchy.implements_of_lookupSpecial (Except.ok.inj (Prod.mk.inj h).1)
  · obtain ⟨className, ρ, -, h⟩ := apply_bind_ok_iff.1 h
    exact Hierarchy.implements_of_lookupVirtual (Except.ok.inj (Prod.mk.inj h).1)
  · obtain ⟨className, ρ, -, h⟩ := apply_bind_ok_iff.1 h
    exact Hierarchy.implements_of_lookupVirtual (Except.ok.inj (Prod.mk.inj h).1)

theorem selectPhase_prompt (i : Invocation) (σ : Session) :
    Prompt strategies (selectPhase i) σ := by
  unfold selectPhase
  split
  · exact .pure _
  refine .bind (.mapError (lookup_madeOf i) (by simp)) fun r τ _ => ?_
  split
  · exact .pure _
  · exact .pure _
  · exact .note_bind (by simp [Event.IsRemark]) fun τ => .interruptWith _ τ

theorem selectPhase_ok {found : Option Implementation}
    (h : (selectPhase i).apply σ = (.ok found, τ)) :
    τ = σ ∧ ∀ m, found = some m →
      (i.method.polymorphic ∧ m.signature = i.method.signature) ∨
        ¬i.method.polymorphic ∧ (lookup i).apply σ = (.ok (.ok m), σ) := by
  unfold selectPhase at h
  split at h
  · next hpolymorphic =>
    cases h
    refine ⟨rfl, fun m hm => ?_⟩
    cases hm
    exact .inl ⟨hpolymorphic, rfl⟩
  next hplain =>
  obtain ⟨r, ρ, hlookup, hrest⟩ := apply_bind_ok_iff.1 h
  rw [apply_mapError_ok_iff] at hlookup
  obtain rfl := (lookup_madeOf i).unchanged hlookup
  split at hrest
  · cases hrest
    refine ⟨rfl, fun m hm => ?_⟩
    cases hm
    exact .inr ⟨hplain, hlookup⟩
  · cases hrest
    exact ⟨rfl, by simp⟩
  · rw [apply_note_bind] at hrest
    exact absurd hrest interruptWith_ne_ok

/-- The selected method has the name of the one that the reference was resolved to. -/
theorem selectPhase_name {m : Implementation} (h : (selectPhase i).apply σ = (.ok (some m), τ)) :
    m.signature.name = i.method.signature.name := by
  obtain ⟨-, hselected⟩ := selectPhase_ok h
  rcases hselected m rfl with ⟨-, hsignature⟩ | ⟨-, hlookup⟩
  · rw [hsignature]
  · exact (lookup_implements hlookup).name_eq

/-- The selected method is declared, with the name and the descriptor of the resolved one. -/
theorem selectPhase_implements {m : Implementation} (hplain : ¬i.method.polymorphic)
    (h : (selectPhase i).apply σ = (.ok (some m), τ)) :
    σ.state.hierarchy.ImplementsAs i.method.signature m := by
  rcases (selectPhase_ok h).2 m rfl with ⟨hpolymorphic, -⟩ | ⟨-, hlookup⟩
  · exact absurd hpolymorphic hplain
  · exact lookup_implements hlookup

theorem overridePhase_prompt (strategies : Strategies) (i : Invocation)
    (found : Option Implementation) (σ : Session) :
    Prompt strategies (overridePhase strategies i found) σ := by
  refine .state_bind ?_
  dsimp only
  split
  · exact .note_bind (by simp [Event.IsRemark]) fun τ => .pure _
  · exact .pure _

theorem overridePhase_ok {found chosen : Option Implementation}
    (h : (overridePhase strategies i found).apply σ = (.ok chosen, τ)) :
    τ.state = σ.state ∧ τ.queries = σ.queries ∧
      chosen = strategies.override σ.state i found := by
  rw [overridePhase, apply_state_bind] at h
  dsimp only at h
  split at h
  · cases h
    exact ⟨rfl, rfl, rfl⟩
  · cases h
    exact ⟨rfl, rfl, rfl⟩

/-- The operands are taken off the stack even if the frame cannot be pushed then. -/
theorem callPhase_prompt {m : Implementation} (hmentions : strategies = .standard →
      ∃ f rest, σ.state.stack = f :: rest ∧ f.owner.Mentions m.signature.name) :
    Prompt strategies (callPhase strategies i m) σ := by
  have hcall (count : Nat) : CallChange strategies σ
      ((callMethod count m.signature (strategies.returnOffset i)).apply σ).2 :=
    .call σ count _ _ hmentions
  unfold Prompt
  rw [callPhase, apply_bind, apply_mapError, apply_bind, apply_liftM]
  cases i.arity with
  | error e => exact ⟨.refl, fun k hk => by cases hk⟩
  | ok count =>
    have hcall := hcall count
    dsimp only [Except.mapError]
    rw [callMethod, apply_bind] at hcall
    rcases hpop : (popOperands count).apply σ with ⟨e | args, ρ⟩
    · rw [hpop] at hcall
      exact ⟨.single hcall, fun k hk => by cases hk⟩
    · rw [hpop] at hcall
      dsimp only at hcall ⊢
      rw [apply_bind, apply_attempt]
      rcases hpush : (pushFrame m.signature false (strategies.returnOffset i) args).apply ρ with
        ⟨r, π⟩
      rw [hpush] at hcall
      have hrest (x : Exec Interrupt Completion) (hx : Prompt strategies x π) :
          ReflTransGen (CallChange strategies) σ (x.apply π).2 ∧
            ∀ k, (x.apply π).1 ≠ .error (.deferred k) := ⟨.head hcall hx.1, hx.2⟩
      refine hrest _ ?_
      split
      · exact .note_bind (by simp [Event.IsRemark]) fun τ => .pure _
      · exact .interruptWith _ π
      · exact .interruptWith _ π
      · exact .fault _

theorem commitPhase_prompt {found : Option Implementation}
    (hmentions : strategies = .standard → ∀ m, found = some m →
      ∃ f rest, σ.state.stack = f :: rest ∧ f.owner.Mentions m.signature.name) :
    Prompt strategies (commitPhase strategies i found) σ := by
  unfold commitPhase
  split
  · exact .interruptWith _ σ
  next m =>
  split
  · refine .bind (.mapError (fun ρ => .single (.patch ρ i.pc invokeHandleOpcode)) (by simp))
      fun _ τ _ => ?_
    exact .note_bind (by simp [Event.IsRemark]) fun τ => .pure _
  split
  · exact .fault _
  split
  · exact .interruptWith _ σ
  · exact callPhase_prompt fun hstandard => hmentions hstandard m rfl

/-- What the last phase has done if it has come to its end: the instruction was changed, or a frame
was pushed for a method that is neither native nor abstract. -/
inductive Commits (strategies : Strategies) (i : Invocation) (σ : Session) :
    Option Implementation → Completion → Session → Prop
  | patched {m : Implementation} {ρ : Session} (hpolymorphic : i.method.polymorphic)
      (hpatch : (updateFrame fun f => do return ((), ← f.patch i.pc invokeHandleOpcode)).apply σ =
        (.ok (), ρ)) :
      Commits strategies i σ (some m) (.patched invokeHandleOpcode)
        { ρ with events := .patched i.reference i.pc :: ρ.events }
  | invoked {m : Implementation} {count : Nat} {args : List Value} {ρ π : Session}
      (hplain : ¬i.method.polymorphic) (hnative : ¬m.isNative) (habstract : ¬m.isAbstract)
      (harity : i.arity = .ok count) (hpop : (popOperands count).apply σ = (.ok args, ρ))
      (hpush : (pushFrame m.signature false (strategies.returnOffset i) args).apply ρ =
        (.ok (), π)) :
      Commits strategies i σ (some m) (.invoked m.signature)
        { π with events := .invoked m.signature :: π.events }

theorem commitPhase_ok {found : Option Implementation} {c : Completion}
    (h : (commitPhase strategies i found).apply σ = (.ok c, τ)) :
    Commits strategies i σ found c τ := by
  unfold commitPhase at h
  split at h
  · exact absurd h interruptWith_ne_ok
  next m =>
  split at h
  · next hpolymorphic =>
    obtain ⟨_, ρ, hpatch, h⟩ := apply_bind_ok_iff.1 h
    cases h
    exact .patched hpolymorphic (apply_mapError_ok_iff.1 hpatch)
  next hplain =>
  split at h
  · cases h
  next hnative =>
  split at h
  · exact absurd h interruptWith_ne_ok
  next habstract =>
  obtain ⟨args, ρ, hargs, h⟩ := apply_bind_ok_iff.1 h
  obtain ⟨count, harity, hpop⟩ := apply_lift_bind_ok_iff.1 (apply_mapError_ok_iff.1 hargs)
  obtain ⟨r, π, hpush, h⟩ := apply_bind_ok_iff.1 h
  cases hpush
  split at h
  · next hok =>
    cases h
    exact .invoked hplain hnative habstract (except_mapError_ok_iff.1 harity) hpop
      (Prod.ext hok rfl)
  · exact absurd h interruptWith_ne_ok
  · exact absurd h interruptWith_ne_ok
  · cases h

/-- The phases after the class of a static method has been initialized. -/
theorem laterPhases_prompt (hmentions : strategies = .standard → ∃ f rest,
      σ.state.stack = f :: rest ∧ f.owner.Mentions i.method.signature.name) :
    Prompt strategies (do
      let found ← selectPhase i
      let chosen ← overridePhase strategies i found
      commitPhase strategies i chosen) σ := by
  refine .bind (selectPhase_prompt i σ) fun found ρ hselect => ?_
  obtain ⟨rfl, -⟩ := selectPhase_ok hselect
  refine .bind (overridePhase_prompt strategies i found ρ) fun chosen π hoverride => ?_
  refine commitPhase_prompt fun hstandard m hm => ?_
  subst hstandard
  rw [apply_overridePhase_standard] at hoverride
  cases hoverride
  subst hm
  rw [selectPhase_name hselect]
  exact hmentions rfl

theorem MadeOf.initialization {x : Exec ε α} (h : MadeOf (InitializationChange policy) x) :
    MadeOf (EngineChange policy strategies) x := h.mono fun _ _ => .initialization

theorem Prompt.steps {x : Exec Interrupt α} (h : Prompt strategies x σ) :
    ReflTransGen (PhaseChange policy oracle strategies) σ (x.apply σ).2 :=
  ReflTransGen.mono (fun _ _ => .call) _ _ h.1

theorem invocationPhases_madeOf (policy : InitializationPolicy) (oracle : Oracle)
    (strategies : Strategies) (kind : InvokeKind) :
    MadeOf (PhaseChange policy oracle strategies)
      (invocationPhases policy oracle strategies kind) := by
  have hresolve : MadeOf (PhaseChange policy oracle strategies) (resolvePhase kind) :=
    fun σ => (resolvePhase_prompt kind σ).steps
  refine hresolve.bind_of_ok fun σ i τ hi => ?_
  have hcheck : MadeOf (PhaseChange policy oracle strategies) (checkPhase strategies i) :=
    fun σ => (checkPhase_prompt strategies i σ).steps
  refine hcheck.steps_bind fun _ ρ hchecked => ?_
  obtain ⟨rfl, -⟩ := checkPhase_ok hchecked
  refine (preparePhase_madeOf policy oracle i).steps_bind fun _ π hprepared => ?_
  obtain ⟨hstate, -, hresolves, -⟩ := resolvePhase_ok hi
  have hthread := preparePhase_ok hprepared
  exact (laterPhases_prompt fun _ => hresolves.mentions (by rw [hthread.stack, hstate])).steps

/-- The phases of a call that has come to its end, one after the other. -/
theorem invocationPhases_ok {c : Completion}
    (h : (invocationPhases policy oracle strategies kind).apply σ = (.ok c, τ)) :
    ∃ i ρ π ω found, (resolvePhase kind).apply σ = (.ok i, ρ) ∧
      strategies.check σ.state i = none ∧ (preparePhase policy oracle i).apply ρ = (.ok (), π) ∧
      (selectPhase i).apply π = (.ok found, π) ∧ ω.state = π.state ∧
      Commits strategies i ω (strategies.override π.state i found) c τ := by
  obtain ⟨i, ρ, hresolve, hchecks⟩ := apply_bind_ok_iff.1 h
  obtain ⟨hstate, -⟩ := resolvePhase_ok hresolve
  obtain ⟨_, _, hcheck, hprepares⟩ := apply_bind_ok_iff.1 hchecks
  obtain ⟨rfl, hchecked⟩ := checkPhase_ok hcheck
  obtain ⟨_, _, hprepare, hselects⟩ := apply_bind_ok_iff.1 hprepares
  obtain ⟨found, π, hselect, hoverrides⟩ := apply_bind_ok_iff.1 hselects
  obtain ⟨rfl, -⟩ := selectPhase_ok hselect
  obtain ⟨chosen, ω, hoverride, hcommits⟩ := apply_bind_ok_iff.1 hoverrides
  obtain ⟨hsame, -, rfl⟩ := overridePhase_ok hoverride
  exact ⟨i, _, π, ω, found, hresolve, hstate ▸ hchecked, hprepare, hselect, hsame,
    commitPhase_ok hcommits⟩

/-- A call that was not interrupted has pushed a frame or changed its instruction. -/
theorem invocationPhases_completion {c : Completion}
    (h : (invocationPhases policy oracle strategies kind).apply σ = (.ok c, τ)) :
    c = .patched invokeHandleOpcode ∨ ∃ method, c = .invoked method := by
  obtain ⟨i, ρ, π, ω, found, -, -, -, -, -, hcommits⟩ := invocationPhases_ok h
  generalize strategies.override π.state i found = chosen at hcommits
  cases hcommits with
  | patched => exact .inl rfl
  | invoked => exact .inr ⟨_, rfl⟩

/-- How a call ended that did not fault: its phases came to their end, or one of them interrupted
it. -/
inductive Ends (policy : InitializationPolicy) (oracle : Oracle) (strategies : Strategies)
    (kind : InvokeKind) (σ : Session) : Completion → Session → Prop
  | invoked {method : Signature} {τ : Session}
      (h : (invocationPhases policy oracle strategies kind).apply σ = (.ok (.invoked method), τ)) :
      Ends policy oracle strategies kind σ (.invoked method) τ
  | patched {τ : Session} (h : (invocationPhases policy oracle strategies kind).apply σ =
        (.ok (.patched invokeHandleOpcode), τ)) :
      Ends policy oracle strategies kind σ (.patched invokeHandleOpcode) τ
  | thrown {t : Throwable} {u : Unwinding} {τ : Session}
      (h : (invocationPhases policy oracle strategies kind).apply σ =
        (.error (.thrown t u), τ)) :
      Ends policy oracle strategies kind σ (.thrown t u)
        { τ with events := .instructionThrew t u :: τ.events }
  | deferred {k : Nat} {τ : Session}
      (h : (invocationPhases policy oracle strategies kind).apply σ =
        (.error (.deferred k), τ)) :
      Ends policy oracle strategies kind σ (.deferred k)
        { τ with events := .instructionDeferred k :: τ.events }

theorem invoke_ok {c : Completion}
    (h : (invoke policy oracle strategies kind).apply σ = (.ok c, τ)) :
    Ends policy oracle strategies kind σ c τ := by
  rw [invoke, apply_bind, apply_attempt] at h
  rcases hphases : (invocationPhases policy oracle strategies kind).apply σ with ⟨e | c', π⟩
  · rw [hphases] at h
    cases e with
    | thrown t u =>
      cases h
      exact .thrown hphases
    | deferred k =>
      cases h
      exact .deferred hphases
    | fault e => cases h
  · rw [hphases] at h
    cases h
    rcases invocationPhases_completion hphases with rfl | ⟨method, rfl⟩
    · exact .patched hphases
    · exact .invoked hphases

theorem invoke_phases (policy : InitializationPolicy) (oracle : Oracle) (strategies : Strategies)
    (kind : InvokeKind) :
    MadeOf (PhaseChange policy oracle strategies) (invoke policy oracle strategies kind) := by
  have hnote {e : Event} (hremark : e.IsRemark) (c : Completion) :
      MadeOf (PhaseChange policy oracle strategies)
        (do note e; return c : Exec ExecutionError Completion) :=
    (remark_madeOf hremark).phaseChange.bind fun _ => .pure _
  refine (invocationPhases_madeOf policy oracle strategies kind).attempt.bind fun r => ?_
  split
  · exact .pure _
  · exact hnote (by simp [Event.IsRemark]) _
  · exact hnote (by simp [Event.IsRemark]) _
  · exact .throw _

theorem invoke_madeOf (policy : InitializationPolicy) (oracle : Oracle) (strategies : Strategies)
    (kind : InvokeKind) :
    MadeOf (EngineChange policy strategies) (invoke policy oracle strategies kind) :=
  (invoke_phases policy oracle strategies kind).refine fun _ _ => PhaseChange.steps

end Exec

theorem Engine.step_phases (engine : Engine) :
    Exec.MadeOf (PhaseChange engine.policy engine.oracle engine.strategies) engine.step := by
  refine .bind .state fun s => .bind (.lift _) fun f => .bind (.lift _) fun opcode => ?_
  refine (Exec.remark_madeOf (by simp [Event.IsRemark])).phaseChange.bind fun _ => ?_
  split
  · exact Exec.invoke_phases _ _ _ _
  · exact .throw _

theorem Engine.step_madeOf (engine : Engine) :
    Exec.MadeOf (EngineChange engine.policy engine.strategies) engine.step :=
  engine.step_phases.refine fun _ _ => PhaseChange.steps

end SymbolicBytecode

import Mathlib
import SymbolicBytecode.Proofs.Deferral

/-!
# Calls that end in an exception

A call may fail late, when its operands are already off the stack of the caller. That does not show
in the end: an exception clears the operands of the frame that handles it and leaves all frames
above that one. `Session.Alike` relates sessions that differ only in the operands of the current
frame, and throwing an exception from either of them comes to the same. So a call that throws has
the effect of the exception and no other, in whatever phase it fails.
-/
namespace SymbolicBytecode

/-- The sessions differ at most in the operands of the current frame and in what was reported. -/
structure Session.Alike (σ τ : Session) : Prop where
  queries : τ.queries = σ.queries
  state : ∃ f rest operands, σ.state.stack = f :: rest ∧
    τ.state = { σ.state with stack := { f with operands } :: rest }

namespace Session.Alike

variable {σ ρ τ : Session}

theorem of_state_eq (hstack : σ.state.stack ≠ []) (hqueries : τ.queries = σ.queries)
    (hstate : τ.state = σ.state) : σ.Alike τ := by
  obtain ⟨f, rest, hframes⟩ := List.exists_cons_of_ne_nil hstack
  refine ⟨hqueries, f, rest, f.operands, hframes, ?_⟩
  rw [hstate, ← hframes]

theorem refl (hstack : σ.state.stack ≠ []) : σ.Alike σ := of_state_eq hstack rfl rfl

theorem trans (h : σ.Alike ρ) (h' : ρ.Alike τ) : σ.Alike τ := by
  obtain ⟨hqueries, f, rest, operands, hstack, hstate⟩ := h
  obtain ⟨hqueries', g, rest', operands', hstack', hstate'⟩ := h'
  rw [hstate] at hstack'
  obtain ⟨rfl, rfl⟩ := List.cons.inj hstack'
  refine ⟨hqueries'.trans hqueries, f, rest, operands', hstack, ?_⟩
  rw [hstate', hstate]

theorem report (h : σ.Alike τ) (e e' : List Event) :
    Session.Alike { σ with events := e } { τ with events := e' } :=
  ⟨h.queries, h.state⟩

end Session.Alike

/-- The operands of the first frame matter to an exception only if that frame is malformed: then it
is still on the stack, with its operands. -/
theorem unwind_operands (h : Hierarchy) (thrown : String) (ref : Reference)
    (search : HandlerSearch) (f : Frame) (operands : List Value) (rest : List Frame) :
    let first := unwind h thrown ref search (f :: rest)
    let second := unwind h thrown ref search ({ f with operands } :: rest)
    second.outcome = first.outcome ∧
      (second.stack = first.stack ∨
        (∃ e, first.outcome = .error e) ∧ first.stack = f :: rest ∧
          second.stack = { f with operands } :: rest) := by
  dsimp only
  have hsame : ({ f with operands } : Frame).findHandler h thrown search =
      f.findHandler h thrown search := f.findHandler_operands operands h thrown search
  rw [unwind, unwind, hsame]
  split
  · next e _ => exact ⟨rfl, .inr ⟨⟨e, rfl⟩, rfl, rfl⟩⟩
  · exact ⟨rfl, .inl rfl⟩
  · exact ⟨rfl, .inl rfl⟩

namespace Exec

variable {ε δ α β : Type} {σ τ : Session}

/-- Two runs come to the same end: in the same state if they succeed, and in sessions that are alike
if they fail. -/
inductive Matches : Except ε α × Session → Except ε α × Session → Prop
  | ok (a : α) {σ τ : Session} (hstate : τ.state = σ.state) (hqueries : τ.queries = σ.queries) :
      Matches (.ok a, σ) (.ok a, τ)
  | error (e : ε) {σ τ : Session} (halike : σ.Alike τ) : Matches (.error e, σ) (.error e, τ)

/-- Run in sessions that are alike, the operation has the same result, and the sessions stay
alike. -/
def KeepsAlike (x : Exec ε α) : Prop :=
  ∀ σ τ, σ.Alike τ → (x.apply τ).1 = (x.apply σ).1 ∧ (x.apply σ).2.Alike (x.apply τ).2

/-- Run in sessions that are alike, the operation removes the difference if it succeeds. -/
def Converges (x : Exec ε α) : Prop :=
  ∀ σ τ, σ.Alike τ → Matches (x.apply σ) (x.apply τ)

namespace KeepsAlike

theorem pure (a : α) : KeepsAlike (Pure.pure a : Exec ε α) := fun _ _ h => ⟨rfl, h⟩

theorem note (e : Event) : KeepsAlike (Exec.note e : Exec ε Unit) :=
  fun _ _ h => ⟨rfl, h.report _ _⟩

theorem bind {x : Exec ε α} {f : α → Exec ε β} (hx : KeepsAlike x) (hf : ∀ a, KeepsAlike (f a)) :
    KeepsAlike (x >>= f) := by
  intro σ τ halike
  obtain ⟨hsame, hafter⟩ := hx σ τ halike
  rw [apply_bind, apply_bind]
  rcases hσ : x.apply σ with ⟨e | a, σ'⟩ <;> rcases hτ : x.apply τ with ⟨e' | a', τ'⟩ <;>
    rw [hσ, hτ] at hsame hafter <;> cases hsame
  · exact ⟨rfl, hafter⟩
  · exact hf a σ' τ' hafter

theorem converges_bind {x : Exec ε α} {f : α → Exec ε β} (hx : KeepsAlike x)
    (hf : ∀ a, Converges (f a)) : Converges (x >>= f) := by
  intro σ τ halike
  obtain ⟨hsame, hafter⟩ := hx σ τ halike
  rw [apply_bind, apply_bind]
  rcases hσ : x.apply σ with ⟨e | a, σ'⟩ <;> rcases hτ : x.apply τ with ⟨e' | a', τ'⟩ <;>
    rw [hσ, hτ] at hsame hafter <;> cases hsame
  · exact .error e hafter
  · exact hf a σ' τ' hafter

theorem mapError {x : Exec ε α} (hx : KeepsAlike x) (g : ε → δ) :
    KeepsAlike (Exec.mapError g x) := by
  intro σ τ halike
  obtain ⟨hsame, hafter⟩ := hx σ τ halike
  exact ⟨by rw [apply_mapError, apply_mapError, hsame], hafter⟩

end KeepsAlike

theorem Converges.mapError {x : Exec ε α} (hx : Converges x) (g : ε → δ) :
    Converges (Exec.mapError g x) := by
  intro σ τ halike
  have hmatches := hx σ τ halike
  rw [apply_mapError, apply_mapError]
  generalize x.apply σ = r at hmatches ⊢
  generalize x.apply τ = r' at hmatches ⊢
  cases hmatches with
  | ok a hstate hqueries => exact .ok a hstate hqueries
  | error e hafter => exact .error (g e) hafter

theorem createThrowable_keepsAlike (className : String) :
    KeepsAlike (createThrowable className) := by
  have hblank : KeepsAlike (blankInstance className) := by
    intro σ τ halike
    obtain ⟨f, rest, operands, hstack, hstate⟩ := halike.state
    have hhierarchy : τ.state.hierarchy = σ.state.hierarchy := by rw [hstate]
    rw [apply_blankInstance, apply_blankInstance, hhierarchy]
    split
    · exact ⟨rfl, halike⟩
    · exact ⟨rfl, halike⟩
  refine hblank.bind fun o σ τ halike => ?_
  obtain ⟨f, rest, operands, hstack, hstate⟩ := halike.state
  have hheap : τ.state.heap = σ.state.heap := by rw [hstate]
  rw [apply_allocate, apply_allocate, hheap]
  exact ⟨rfl, halike.queries, f, rest, operands, hstack, by simp only [Session.adding, hstate]⟩

theorem pushOperand_keepsAlike (v : Value) : KeepsAlike (pushOperand v) := by
  intro σ τ halike
  obtain ⟨f, rest, operands, hstack, hstate⟩ := halike.state
  have hstack' : τ.state.stack = { f with operands } :: rest := by rw [hstate]
  have hσ : (pushOperand v).apply σ = _ := apply_updateFrame hstack rfl
  have hτ : (pushOperand v).apply τ = _ := apply_updateFrame hstack' rfl
  rw [hσ, hτ]
  exact ⟨rfl, halike.queries, f.push v, rest, v :: operands, rfl, by rw [hstate]; rfl⟩

theorem raise_keepsAlike (t : Throwable) : KeepsAlike (raise t) :=
  (KeepsAlike.note _).bind fun _ => (createThrowable_keepsAlike _).bind fun _ =>
    (pushOperand_keepsAlike _).bind fun _ => .pure _

/-- An exception that is handled, or ends the thread, leaves no operands of the frame it came
from. -/
theorem throwFrom_converges (ref : Reference) (search : HandlerSearch) :
    Converges (throwFrom ref search) := by
  intro σ τ halike
  obtain ⟨f, rest, operands, hstack, hstate⟩ := halike.state
  have hclass : τ.state.classOf ref = σ.state.classOf ref := by rw [hstate]; rfl
  cases hthrown : σ.state.classOf ref with
  | error e =>
    have hfails (ρ : Session) (hρ : ρ.state.classOf ref = .error e) :
        (throwFrom ref search).apply ρ = (.error e, ρ) := by
      rw [throwFrom, apply_state_bind, apply_bind, apply_liftM, hρ]
    rw [hfails σ hthrown, hfails τ (hclass.trans hthrown)]
    exact .error e halike
  | ok thrown =>
    have hstack' : τ.state.stack = { f with operands } :: rest := by rw [hstate]
    have hhierarchy : τ.state.hierarchy = σ.state.hierarchy := by rw [hstate]
    rw [apply_throwFrom search hthrown (by simp [hstack]),
      apply_throwFrom search (hclass.trans hthrown) (by simp [hstack'])]
    obtain ⟨houtcome, hleft⟩ :=
      unwind_operands σ.state.hierarchy thrown ref search f operands rest
    simp only [hstack, hstack', hhierarchy, houtcome]
    rcases hleft with hleft | ⟨⟨e, he⟩, hfirst, hsecond⟩
    · rw [hleft]
      cases hend : (unwind σ.state.hierarchy thrown ref search (f :: rest)).outcome with
      | ok u =>
        refine .ok u ?_ halike.queries
        rw [hstate]
        cases u <;> rfl
      | error e =>
        obtain ⟨u, hu, -⟩ | ⟨_, g, below, -, hmalformed, -⟩ := unwind_cases σ.state.hierarchy
          thrown ref search (f :: rest)
        · cases hu.symm.trans hend
        · refine .error e (.of_state_eq ?_ halike.queries ?_)
          · simp [hmalformed]
          · rw [hstate]
    · rw [he, hfirst, hsecond]
      exact .error e ⟨halike.queries, f, rest, operands, rfl, by rw [hstate]⟩

theorem throwVerifyError_converges : Converges throwVerifyError :=
  ((raise_keepsAlike _).converges_bind fun ref => throwFrom_converges ref .lenient).mapError _

theorem throwObject_converges (ref : Reference) : Converges (throwObject ref) := by
  intro σ τ halike
  have hmatches := throwFrom_converges ref .strict σ τ halike
  rw [throwObject, apply_bind, apply_bind, apply_attempt, apply_attempt]
  generalize (throwFrom ref .strict).apply σ = r at hmatches ⊢
  generalize (throwFrom ref .strict).apply τ = r' at hmatches ⊢
  cases hmatches with
  | ok u hstate hqueries => exact .ok u hstate hqueries
  | error e hafter =>
    -- a malformed frame may still have its operands; the verification error removes them
    dsimp only
    split
    · rw [apply_note_bind, apply_note_bind]
      exact throwVerifyError_converges _ _ (hafter.report _ _)
    · rw [apply_note_bind, apply_note_bind]
      exact throwVerifyError_converges _ _ (hafter.report _ _)
    · exact .error _ hafter

theorem createAndThrow_queries {t : Throwable} {r : Except ExecutionError Unwinding}
    (h : (createAndThrow t).apply σ = (r, τ)) : τ.queries = σ.queries := by
  refine (createAndThrow_madeOf t).preserves_of_apply (·.queries = σ.queries) ?_ rfl h
  intro ρ π hthrow hρ
  refine Session.inv_of_steps (·.queries = σ.queries) ?_ hthrow.steps hρ
  intro ρ π hchange hρ
  exact hchange.queries_eq.trans hρ

theorem createAndThrow_converges (t : Throwable) : Converges (createAndThrow t) := by
  unfold createAndThrow
  split
  · exact throwVerifyError_converges
  · exact ((raise_keepsAlike t).mapError _).converges_bind throwObject_converges

/-- If the operation ends with an exception, then it has the effect of the same exception thrown in
the session `start`. -/
def OnlyThrows (start : Session) (x : Exec Interrupt α) (σ : Session) : Prop :=
  ∀ t u τ, x.apply σ = (.error (.thrown t u), τ) →
    ∃ ρ, (createAndThrow t).apply start = (.ok u, ρ) ∧ τ.state = ρ.state ∧ τ.queries = ρ.queries

namespace OnlyThrows

variable {start : Session} {x : Exec Interrupt α}

theorem of_ok {a : α} (hx : x.apply σ = (.ok a, τ)) : OnlyThrows start x σ := by
  intro t u ρ hthrown
  cases hx.symm.trans hthrown

theorem pure (a : α) : OnlyThrows start (Pure.pure a : Exec Interrupt α) σ := of_ok rfl

theorem fault (e : ExecutionError) : OnlyThrows start (throw (.fault e) : Exec Interrupt α) σ := by
  intro t u ρ hthrown
  cases hthrown

theorem mapError {y : Exec ε α} {g : ε → Interrupt} (hg : ∀ e t u, g e ≠ .thrown t u) :
    OnlyThrows start (Exec.mapError g y) σ := by
  intro t u ρ hthrown
  obtain ⟨e, -, he⟩ := apply_mapError_error_iff.1 hthrown
  exact absurd he (hg e t u)

theorem bind {f : α → Exec Interrupt β} (hx : OnlyThrows start x σ)
    (hf : ∀ a τ, x.apply σ = (.ok a, τ) → OnlyThrows start (f a) τ) :
    OnlyThrows start (x >>= f) σ := by
  intro t u ρ hthrown
  rcases apply_bind_error_iff.1 hthrown with hfirst | ⟨a, π, hfirst, hrest⟩
  · exact hx t u ρ hfirst
  · exact hf a π hfirst t u ρ hrest

theorem state_bind {f : State → Exec Interrupt β} (hf : OnlyThrows start (f σ.state) σ) :
    OnlyThrows start (Exec.state >>= f) σ := by
  intro t u τ hthrown
  rw [apply_state_bind] at hthrown
  exact hf t u τ hthrown

theorem note_bind {e : Event} {f : Unit → Exec Interrupt β}
    (hf : OnlyThrows start (f ()) { σ with events := e :: σ.events }) :
    OnlyThrows start (note e >>= f) σ := by
  intro t u τ hthrown
  rw [apply_note_bind] at hthrown
  exact hf t u τ hthrown

theorem interruptWith (t : Throwable) (halike : start.Alike σ) :
    OnlyThrows start (Exec.interruptWith t : Exec Interrupt α) σ := by
  intro t' u τ hthrown
  have hmatches := createAndThrow_converges t start σ halike
  rw [Exec.interruptWith, apply_bind, apply_attempt] at hthrown
  rcases hstart : (createAndThrow t).apply start with ⟨e | u', ρ⟩ <;>
    rcases hσ : (createAndThrow t).apply σ with ⟨e' | u'', ρ'⟩ <;>
    rw [hstart, hσ] at hmatches <;> rw [hσ] at hthrown <;> cases hthrown <;>
    cases hmatches
  next hstate hqueries => exact ⟨ρ, hstart, hstate, hqueries⟩

theorem note_interruptWith {e : Event} (t : Throwable) (halike : start.Alike σ) :
    OnlyThrows start (do note e; Exec.interruptWith t : Exec Interrupt α) σ :=
  .note_bind (.interruptWith t (halike.report start.events _))

end OnlyThrows

variable {start : Session} {policy : InitializationPolicy} {oracle : Oracle}
  {strategies : Strategies} {kind : InvokeKind} {i : Invocation}

theorem resolvePhase_onlyThrows (kind : InvokeKind) (halike : start.Alike σ) :
    OnlyThrows start (resolvePhase kind) σ := by
  refine .state_bind ?_
  split
  · split
    · exact .note_interruptWith _ halike
    · exact .note_interruptWith _ halike
    · exact .fault _
  · dsimp only
    split
    · exact .note_interruptWith _ halike
    split
    · exact .interruptWith _ halike
    split
    · exact .note_interruptWith _ halike
    · exact .note_bind (.pure _)

theorem checkPhase_onlyThrows (strategies : Strategies) (i : Invocation) (halike : start.Alike σ) :
    OnlyThrows start (checkPhase strategies i) σ := by
  refine .state_bind ?_
  split
  · exact .interruptWith _ halike
  · exact .pure _

theorem selectPhase_onlyThrows (i : Invocation) (halike : start.Alike σ) :
    OnlyThrows start (selectPhase i) σ := by
  unfold selectPhase
  split
  · exact .pure _
  refine .bind (.mapError (by simp)) fun r τ hlookup => ?_
  obtain rfl := (lookup_madeOf i).unchanged (apply_mapError_ok_iff.1 hlookup)
  split
  · exact .pure _
  · exact .pure _
  · exact .note_interruptWith _ halike

theorem overridePhase_onlyThrows (strategies : Strategies) (i : Invocation)
    (found : Option Implementation) : OnlyThrows start (overridePhase strategies i found) σ := by
  refine .state_bind ?_
  dsimp only
  split
  · exact .note_bind (.pure _)
  · exact .pure _

/-- If the frame cannot be pushed, the operands are off the stack, and all else is as before. -/
theorem callPhase_onlyThrows {m : Implementation} (halike : start.Alike σ) :
    OnlyThrows start (callPhase strategies i m) σ := by
  refine .bind (.mapError (by simp)) fun args τ hpopped => ?_
  obtain ⟨count, -, hpop⟩ := apply_lift_bind_ok_iff.1 (apply_mapError_ok_iff.1 hpopped)
  have hpopped' : σ.Alike τ := by
    rcases popOperands_cases count σ with ⟨e, herror⟩ | ⟨f, rest, hstack, hok⟩
    · cases hpop.symm.trans herror
    · cases hpop.symm.trans hok
      exact ⟨rfl, f, rest, _, hstack, rfl⟩
  have halike' := halike.trans hpopped'
  rcases pushFrame_cases m.signature false (strategies.returnOffset i) args τ with
    ⟨e, herror⟩ | ⟨c, method, frame, -, -, -, hok⟩
  · refine .bind (.of_ok rfl) fun r ρ hr => ?_
    rw [apply_attempt, herror] at hr
    cases hr
    split
    · exact .note_bind (.pure _)
    · exact .interruptWith _ halike'
    · exact .interruptWith _ halike'
    · exact .fault _
  · refine .bind (.of_ok rfl) fun r ρ hr => ?_
    rw [apply_attempt, hok, if_neg Bool.false_ne_true, apply_pushPrepared_resuming] at hr
    cases hr
    exact .note_bind (.pure _)

theorem commitPhase_onlyThrows {found : Option Implementation} (halike : start.Alike σ) :
    OnlyThrows start (commitPhase strategies i found) σ := by
  unfold commitPhase
  split
  · exact .interruptWith _ halike
  split
  · exact .bind (.mapError (by simp)) fun _ τ _ => .note_bind (.pure _)
  split
  · exact .fault _
  split
  · exact .interruptWith _ halike
  · exact callPhase_onlyThrows halike

/-- A call that need not initialize a class fails without having done anything else. -/
theorem invocationPhases_onlyThrows (policy : InitializationPolicy) (oracle : Oracle)
    (strategies : Strategies) (halike : start.Alike σ) (hready : kind = .static →
      ∀ i, σ.state.Resolves kind i → σ.state.hasKlass i.method.signature.className) :
    OnlyThrows start (invocationPhases policy oracle strategies kind) σ := by
  refine .bind (resolvePhase_onlyThrows kind halike) fun i ρ hresolve => ?_
  obtain ⟨hstate, hqueries, hresolves, -⟩ := resolvePhase_ok hresolve
  have halike' : start.Alike ρ := by
    obtain ⟨f, rest, operands, hstack, hsame⟩ := halike.state
    exact ⟨hqueries.trans halike.queries, f, rest, operands, hstack, hstate.trans hsame⟩
  refine .bind (checkPhase_onlyThrows strategies i halike') fun _ π hcheck => ?_
  obtain ⟨rfl, -⟩ := checkPhase_ok hcheck
  have hhas : i.kind = .static → π.state.hasKlass i.method.signature.className := by
    intro hstatic
    rw [hstate]
    exact hready (hresolves.kind_eq.symm.trans hstatic) i hresolves
  have hprepare := apply_preparePhase_ready policy oracle hhas
  refine .bind (.of_ok hprepare) fun _ ω hprepared => ?_
  cases hprepare.symm.trans hprepared
  refine .bind (selectPhase_onlyThrows i halike') fun found ω hselect => ?_
  obtain ⟨rfl, -⟩ := selectPhase_ok hselect
  refine .bind (overridePhase_onlyThrows strategies i found) fun chosen ω hoverride => ?_
  obtain ⟨hsame, hasked, -⟩ := overridePhase_ok hoverride
  have hnonempty : ω.state.stack ≠ [] := by
    obtain ⟨f, rest, operands, -, hstack⟩ := halike'.state
    simp [hsame, hstack]
  refine commitPhase_onlyThrows (halike'.trans (.of_state_eq ?_ hasked hsame))
  rwa [← hsame]

theorem invoke_thrown {t : Throwable} {u : Unwinding} (hstack : σ.state.stack ≠ [])
    (hready : kind = .static →
      ∀ i, σ.state.Resolves kind i → σ.state.hasKlass i.method.signature.className)
    (h : (invoke policy oracle strategies kind).apply σ = (.ok (.thrown t u), τ)) :
    ∃ ρ, (createAndThrow t).apply σ = (.ok u, ρ) ∧ τ.state = ρ.state ∧
      τ.queries = ρ.queries := by
  have honly := invocationPhases_onlyThrows policy oracle strategies (.refl hstack) hready
  cases invoke_ok h with
  | @thrown _ _ π hphases => exact honly t u π hphases

end Exec

namespace Engine

variable {engine : Engine} {σ τ : Session} {f : Frame} {rest : List Frame} {kind : InvokeKind}
  {t : Throwable} {u : Unwinding}

/-- **A call that throws does nothing else.** If a call ends in an exception, then the state after
it and the way in which the exception was handled are those of the exception thrown from the state
before the call, and the oracle has not been asked. This holds in whatever phase the call failed,
for all strategies, unless it is a call of a static method whose class is yet to be initialized. -/
theorem step_thrown_only_throws (hstack : σ.state.stack = f :: rest)
    (hopcode : f.code[f.pc]? = some kind.opcode)
    (hready : kind = .static →
      ∀ i, σ.state.Resolves kind i → σ.state.hasKlass i.method.signature.className)
    (hstep : engine.step.apply σ = (.ok (.thrown t u), τ)) :
    ∃ ρ, (Exec.createAndThrow t).apply σ = (.ok u, ρ) ∧ τ.state = ρ.state ∧
      τ.queries = σ.queries := by
  rw [apply_step engine hstack hopcode] at hstep
  have hnonempty : σ.state.stack ≠ [] := by simp [hstack]
  let noted : Session := { σ with events := .instruction kind.opcode f.pc :: σ.events }
  have halike : σ.Alike noted := .of_state_eq hnonempty rfl rfl
  obtain ⟨ρ, hthrow, hstate, hqueries⟩ :=
    Exec.invoke_thrown (σ := noted) hnonempty hready hstep
  have hmatches := Exec.createAndThrow_converges t σ noted halike
  rw [hthrow] at hmatches
  have hasked : ρ.queries = noted.queries := Exec.createAndThrow_queries hthrow
  rcases hσ : (Exec.createAndThrow t).apply σ with ⟨e | u', ω⟩
  · rw [hσ] at hmatches
    cases hmatches
  · rw [hσ] at hmatches
    cases hmatches with
    | ok _ hsame => exact ⟨ω, rfl, hstate.trans hsame, hqueries.trans hasked⟩

/-- The caller of a method without code, which handles whatever is thrown. -/
def cautiousCaller : Frame :=
  { bodilessCaller with code := [0xb6, 0, 6, 0xb1], handlers := [⟨0, 3, 3, 0⟩] }

/-- The classes that the call and the exception need. -/
def cautiousClasses : Hierarchy :=
  [Bootstrap.object.build, bodiless,
    ({ ClassOutline.publicClass Throwable.abstractMethodError.className with
      superName := none } : ClassOutline).build].foldl Hierarchy.add .empty

def cautiousCall : State :=
  { bodilessCall with hierarchy := cautiousClasses, stack := [cautiousCaller] }

/-- The receiver is off the operand stack when the call fails, and the caller goes on as if the
exception had been thrown before. -/
theorem step_cautiousCall :
    ∃ τ ρ, callsBodiless.apply (.start cautiousCall) =
        (.ok (.thrown .abstractMethodError (.caught 3)), τ) ∧
      (Exec.createAndThrow .abstractMethodError).apply (.start cautiousCall) =
        (.ok (.caught 3), ρ) ∧
      τ.state = ρ.state ∧ cautiousCaller.operands = [.reference (.concrete 0)] := by
  have hstep : callsBodiless.apply (.start cautiousCall) =
      (.ok (.thrown .abstractMethodError (.caught 3)),
        (callsBodiless.apply (.start cautiousCall)).2) := Prod.ext (by decide +kernel) rfl
  have hstack : (Session.start cautiousCall).state.stack = [cautiousCaller] := rfl
  have hopcode : cautiousCaller.code[cautiousCaller.pc]? = some InvokeKind.virtual.opcode := rfl
  obtain ⟨ρ, hthrow, hstate, -⟩ := step_thrown_only_throws hstack hopcode (by simp) hstep
  exact ⟨_, ρ, hstep, hthrow, hstate, rfl⟩

end Engine

end SymbolicBytecode

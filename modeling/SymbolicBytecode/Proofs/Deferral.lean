import Mathlib
import SymbolicBytecode.Proofs.Closure
import SymbolicBytecode.Proofs.InitializerFrames

/-!
# Deferred calls

A call of a static method may have to wait for class initialization methods. Their frames are pushed
above the caller, which resumes at the call itself. When they have returned, the thread is as it was
and their classes are initialized, so that the call is made again and does not wait any more.
-/
namespace SymbolicBytecode

/-- The session after this many frames have returned without a value. -/
def Session.returning (σ : Session) : Nat → Session
  | 0 => σ
  | n + 1 => Session.returning ((Exec.completeFrame none).apply σ).2 n

/-- The static store after some methods have returned. -/
def finishAll (frames : List Frame) (statics : Table Klass) : Table Klass :=
  frames.foldl (fun statics f => f.signature.finish statics) statics

theorem finishAll_cons (f : Frame) (rest : List Frame) (statics : Table Klass) :
    finishAll (f :: rest) statics = finishAll rest (f.signature.finish statics) := rfl

section Statics

variable {statics : Table Klass} {name : String} {k : Klass}

theorem finishAll_keeps {frames : List Frame} (hget : statics.get? name = some k)
    (hstatus : k.status = .initialized) :
    ∃ l, (finishAll frames statics).get? name = some l ∧ l.status = .initialized := by
  induction frames generalizing statics k with
  | nil => exact ⟨k, hget, hstatus⟩
  | cons f rest ih =>
    obtain ⟨l, hget', hstatus'⟩ := f.signature.finish_keeps hget hstatus
    exact ih hget' hstatus'

theorem contains_finishAll (frames : List Frame) (statics : Table Klass) (name : String) :
    (finishAll frames statics).contains name = statics.contains name := by
  induction frames generalizing statics with
  | nil => rfl
  | cons f rest ih => rw [finishAll_cons, ih, Signature.contains_finish]

/-- The class of each class initialization method that has returned is initialized. -/
theorem finishAll_initialized {frames : List Frame} {f : Frame} (hf : f ∈ frames)
    (hinitializer : f.signature.isInitializer) (hhas : statics.contains f.signature.className) :
    ∃ l, (finishAll frames statics).get? f.signature.className = some l ∧
      l.status = .initialized := by
  induction frames generalizing statics with
  | nil => cases hf
  | cons g rest ih =>
    rcases List.mem_cons.1 hf with rfl | hf
    · obtain ⟨k, hget⟩ := Option.isSome_iff_exists.1 hhas
      have hown : (f.signature.finish statics).get? f.signature.className =
          some { k with status := .initialized } := by
        rw [Signature.get?_finish, if_pos ⟨hinitializer, rfl⟩, hget]
        rfl
      rw [finishAll_cons]
      exact finishAll_keeps hown rfl
    · exact ih hf (by rwa [Signature.contains_finish])

end Statics

theorem IsInitializerFrame.starts {h : Hierarchy} {className : String} {f : Frame}
    (hf : IsInitializerFrame h className f) :
    f.signature = .initializer className ∧ f.pc = 0 ∧ f.returnPc = 0 := by
  obtain ⟨c, m, code, -, -, -, -, rfl⟩ := hf
  exact ⟨rfl, rfl, rfl⟩

namespace Exec

variable {σ τ : Session}

/-- A frame that resumes where it stands becomes the current one again as it is. -/
theorem completeFrame_resumes {g next : Frame} {below : List Frame}
    (hstack : σ.state.stack = g :: next :: below) (hnext : next.returnPc = next.pc) :
    ((completeFrame none).apply σ).2 = { σ with state := { σ.state with
      stack := next :: below
      statics := g.signature.finish σ.state.statics } } ∧
    (next.pc < next.code.length → ((completeFrame none).apply σ).1 = .ok ()) := by
  rw [apply_completeFrame none hstack, hnext, Frame.setPc]
  by_cases hpc : next.pc < next.code.length
  · rw [if_pos hpc]
    exact ⟨rfl, fun _ => rfl⟩
  · rw [if_neg hpc]
    exact ⟨rfl, fun hlt => absurd hlt hpc⟩

end Exec

namespace Session

variable {σ : Session} {pushed rest : List Frame} {caller : Frame}

theorem returning_eq (hstack : σ.state.stack = pushed ++ caller :: rest)
    (hpushed : ∀ g ∈ pushed, g.returnPc = g.pc) (hcaller : caller.returnPc = caller.pc) {i : Nat}
    (hi : i ≤ pushed.length) :
    σ.returning i = { σ with state := { σ.state with
      stack := pushed.drop i ++ caller :: rest
      statics := finishAll (pushed.take i) σ.state.statics } } := by
  induction i generalizing σ pushed with
  | zero => simp [returning, finishAll, ← hstack]
  | succ i ih =>
    cases pushed with
    | nil => simp at hi
    | cons g more =>
      obtain ⟨-, hmore⟩ := List.forall_mem_cons.1 hpushed
      -- below it is another frame that was pushed, or the caller: either resumes where it stands
      obtain ⟨next, below, hbelow, hnext⟩ : ∃ next below,
          more ++ caller :: rest = next :: below ∧ next.returnPc = next.pc := by
        cases more with
        | nil => exact ⟨caller, rest, rfl, hcaller⟩
        | cons next more => exact ⟨next, _, rfl, (List.forall_mem_cons.1 hmore).1⟩
      rw [List.cons_append, hbelow] at hstack
      have hreturned := (Exec.completeFrame_resumes hstack hnext).1
      rw [← hbelow] at hreturned
      rw [returning, hreturned]
      exact ih rfl hmore (by simpa using hi)

/-- A frame can return if the frame below it has code to go on with. -/
theorem returning_ok (hstack : σ.state.stack = pushed ++ caller :: rest)
    (hpushed : ∀ g ∈ pushed, g.returnPc = g.pc) (hcaller : caller.returnPc = caller.pc)
    (hcode : caller.pc < caller.code.length) {i : Nat} (hi : i < pushed.length)
    (hnext : ∀ g, pushed[i + 1]? = some g → g.pc < g.code.length) :
    ((Exec.completeFrame none).apply (σ.returning i)).1 = .ok () := by
  have hτ := returning_eq hstack hpushed hcaller hi.le
  have hdrop : pushed.drop i = pushed[i] :: pushed.drop (i + 1) := List.drop_eq_getElem_cons hi
  cases hmore : pushed.drop (i + 1) with
  | nil =>
    have hstack' : (σ.returning i).state.stack = pushed[i] :: caller :: rest := by
      rw [hτ, hdrop, hmore]
      rfl
    exact (Exec.completeFrame_resumes hstack' hcaller).2 hcode
  | cons next more =>
    have hget : pushed[i + 1]? = some next := by
      have hfirst : (pushed.drop (i + 1))[0]? = pushed[i + 1]? := List.getElem?_drop
      rw [← hfirst, hmore, List.getElem?_cons_zero]
    have hstack' : (σ.returning i).state.stack =
        pushed[i] :: next :: (more ++ caller :: rest) := by
      rw [hτ, hdrop, hmore]
      rfl
    have hresumes := hpushed next (List.mem_of_getElem? hget)
    exact (Exec.completeFrame_resumes hstack' hresumes).2 (hnext next hget)

end Session

/-- Where a frame resumes has no part in what its current instruction refers to. -/
theorem State.Resolves.method_eq {s t : State} {kind : InvokeKind} {i j : Invocation} {f : Frame}
    {rest rest' : List Frame} {returnPc : Nat} (hs : s.Resolves kind i) (ht : t.Resolves kind j)
    (hstack : s.stack = f :: rest) (hstack' : t.stack = { f with returnPc } :: rest')
    (hhierarchy : t.hierarchy = s.hierarchy) : j.method = i.method := by
  obtain ⟨g, member, hreference, -, -, -, hmethod⟩ := hs
  obtain ⟨g', member', hreference', -, -, -, hmethod'⟩ := ht
  obtain ⟨⟨_, hg⟩, index, hindex, hmember⟩ := currentReference_ok hreference
  obtain ⟨⟨_, hg'⟩, index', hindex', hmember'⟩ := currentReference_ok hreference'
  obtain ⟨rfl, -⟩ := List.cons.inj (hstack.symm.trans hg)
  obtain ⟨rfl, -⟩ := List.cons.inj (hstack'.symm.trans hg')
  have hsame : Except.ok index = Except.ok index' := hindex.symm.trans hindex'
  cases hsame
  have hsame : Except.ok member = Except.ok member' := hmember.symm.trans hmember'
  cases hsame
  rw [hhierarchy] at hmethod'
  exact Except.ok.inj (hmethod'.symm.trans hmethod)

/-- What a call that waits comes to: there are frames of class initialization methods above the
caller, which resumes at the call, and static entries for their classes and that of the method. -/
structure State.Waits (s : State) (kind : InvokeKind) (pushed : List Frame) (t : State) : Prop where
  stack : t.stack = pushed ++ resumingHere s.stack
  hierarchy : t.hierarchy = s.hierarchy
  frames : ∀ g ∈ pushed, ∃ name, IsInitializerFrame s.hierarchy name g ∧ t.hasKlass name
  ready : ∃ i, s.Resolves kind i ∧ t.hasKlass i.method.signature.className

namespace State.Waits

variable {s : State} {kind : InvokeKind} {pushed rest : List Frame} {f g : Frame} {τ : Session}

theorem stack_eq (h : s.Waits kind pushed τ.state) (hstack : s.stack = f :: rest) :
    τ.state.stack = pushed ++ { f with returnPc := f.pc } :: rest := by
  rw [h.stack, hstack]
  rfl

theorem starts (h : s.Waits kind pushed τ.state) (hg : g ∈ pushed) :
    g.pc = 0 ∧ g.returnPc = g.pc := by
  obtain ⟨name, hinitializer, -⟩ := h.frames g hg
  obtain ⟨-, hpc, hreturnPc⟩ := hinitializer.starts
  exact ⟨hpc, hreturnPc.trans hpc.symm⟩

theorem returning_eq (h : s.Waits kind pushed τ.state) (hstack : s.stack = f :: rest) :
    τ.returning pushed.length = { τ with state := { τ.state with
      stack := { f with returnPc := f.pc } :: rest
      statics := finishAll pushed τ.state.statics } } := by
  have hreturned := Session.returning_eq (h.stack_eq hstack) (fun g hg => (h.starts hg).2) rfl
    (Nat.le_refl pushed.length)
  rwa [List.drop_length, List.take_length, List.nil_append] at hreturned

theorem returning_initialized (h : s.Waits kind pushed τ.state) (hstack : s.stack = f :: rest)
    (hg : g ∈ pushed) :
    ∃ l, (τ.returning pushed.length).state.statics.get? g.signature.className = some l ∧
      l.status = .initialized := by
  obtain ⟨name, hinitializer, hhas⟩ := h.frames g hg
  have hsignature := hinitializer.starts.1
  rw [h.returning_eq hstack]
  exact finishAll_initialized hg (by rw [hsignature]; rfl) (by rw [hsignature]; exact hhas)

/-- The call is of the same method as before, and its class has a static entry by now. -/
theorem returning_ready (h : s.Waits kind pushed τ.state) (hstack : s.stack = f :: rest)
    {j : Invocation} (hj : (τ.returning pushed.length).state.Resolves kind j) :
    (τ.returning pushed.length).state.hasKlass j.method.signature.className := by
  obtain ⟨i, hi, hhas⟩ := h.ready
  rw [h.returning_eq hstack] at hj ⊢
  rw [hi.method_eq hj hstack rfl h.hierarchy, State.hasKlass, contains_finishAll]
  exact hhas

end State.Waits

theorem Session.ThreadChange.queries_eq {σ τ : Session} (h : Session.ThreadChange σ τ) :
    τ.queries = σ.queries := by
  cases h <;> rfl

namespace Exec

variable {policy : InitializationPolicy} {oracle : Oracle} {strategies : Strategies}
  {kind : InvokeKind} {i : Invocation} {σ τ : Session} {k : Nat}

theorem Prompt.queries_eq {α : Type} {x : Exec Interrupt α} (h : Prompt strategies x σ) :
    (x.apply σ).2.queries = σ.queries := by
  refine Session.inv_of_steps (·.queries = σ.queries) (fun ρ π hcall hρ => ?_) h.1 rfl
  refine Session.inv_of_steps (·.queries = σ.queries) (fun ρ π hthread hρ => ?_) hcall.steps hρ
  exact hthread.queries_eq.trans hρ

/-- The frames of the class initialization methods that are to run, topmost superclass first. -/
theorem initializeClass_pushes {className : String} {frames : Nat}
    (h : (initializeClass policy oracle className).apply σ = (.ok (.created frames), τ))
    (hpos : 0 < frames) :
    ∃ pushed, pushed.length = frames ∧
      τ.state.stack = pushed ++ resumingHere σ.state.stack ∧
      ∀ g ∈ pushed, ∃ name, IsInitializerFrame σ.state.hierarchy name g ∧
        τ.state.hasKlass name := by
  cases initializeClass_outcome h with
  | failed _ _ hfail =>
    obtain ⟨t, u, -, hfailed, -⟩ := failInitialization_ok hfail
    cases hfailed
  | @created _ t staged _ _ hstaged hstate =>
    have hklass := fun e he => hstaged.hasKlass (e := e) he
    obtain ⟨chain, assumed, -, hgrows, -, hframes⟩ := hstaged
    have hstart : ∀ f ∈ staged.reverse.filterMap Staged.frame, f.returnPc = f.pc :=
      frames_start fun e he => hframes e (List.mem_reverse.1 he)
    refine ⟨(staged.reverse.filterMap Staged.frame).reverse, List.length_reverse, ?_, ?_⟩
    · have hsome : staged.reverse.filterMap Staged.frame ≠ [] := List.length_pos_iff.1 hpos
      rw [hstate]
      change pushFrames _ t.stack = _
      rw [pushFrames_eq _ hstart, if_neg hsome, State.Grows.stack hgrows]
    · intro g hg
      obtain ⟨e, he, hframe⟩ := List.mem_filterMap.1 (List.mem_reverse.1 hg)
      have he := List.mem_reverse.1 he
      rcases State.initializerFrame_declares (hframes e he) with
        ⟨hnone, -⟩ | ⟨f, hsome, -, hinitializer⟩
      · cases hnone.symm.trans hframe
      · cases hsome.symm.trans hframe
        refine ⟨e.className, hinitializer, ?_⟩
        rw [hstate, State.hasKlass, contains_setStatuses]
        exact hklass e he

theorem preparePhase_deferred
    (h : (preparePhase policy oracle i).apply σ = (.error (.deferred k), τ)) :
    0 < k ∧
      (initializeClass policy oracle i.method.signature.className).apply σ =
        (.ok (.created k), τ) := by
  unfold preparePhase at h
  split at h
  · rw [apply_bind, apply_attempt] at h
    rcases hrun : (initializeClass policy oracle i.method.signature.className).apply σ with
      ⟨e | outcome, ρ⟩
    · rw [hrun] at h
      dsimp only at h
      split at h
      · next hok => cases hok
      · next hok => cases hok
      · next hok => cases hok
      · have hprompt : Prompt .standard (interruptWith .outOfMemoryError : Exec Interrupt Unit) ρ :=
          .interruptWith _ ρ
        exact absurd h hprompt.ne_deferred
      · cases h
    · rw [hrun] at h
      cases outcome with
      | already => cases h
      | failed t u => cases h
      | created frames =>
        dsimp only at h
        split at h
        · next hpos =>
          cases h
          exact ⟨hpos, rfl⟩
        · cases h
  · cases h

/-- A call waits only for the class of the method that its reference is resolved to. -/
theorem invocationPhases_deferred
    (h : (invocationPhases policy oracle strategies kind).apply σ = (.error (.deferred k), τ)) :
    ∃ i ρ, ρ.state = σ.state ∧ σ.state.Resolves kind i ∧ 0 < k ∧
      (initializeClass policy oracle i.method.signature.className).apply ρ =
        (.ok (.created k), τ) := by
  rcases apply_bind_error_iff.1 h with hresolve | ⟨i, ρ, hresolve, hrest⟩
  · have hprompt : Prompt strategies (resolvePhase kind) σ := resolvePhase_prompt kind σ
    exact absurd hresolve hprompt.ne_deferred
  obtain ⟨hstate, -, hresolves, -⟩ := resolvePhase_ok hresolve
  rcases apply_bind_error_iff.1 hrest with hcheck | ⟨_, π, hcheck, hprepares⟩
  · exact absurd hcheck (checkPhase_prompt strategies i ρ).ne_deferred
  obtain ⟨rfl, -⟩ := checkPhase_ok hcheck
  rcases apply_bind_error_iff.1 hprepares with hprepare | ⟨_, ω, hprepare, hlater⟩
  · obtain ⟨hpos, hrun⟩ := preparePhase_deferred hprepare
    exact ⟨i, π, hstate, hresolves, hpos, hrun⟩
  · have hstack := (preparePhase_ok hprepare).stack
    exact absurd hlater (laterPhases_prompt fun _ =>
      hresolves.mentions (by rw [hstack, hstate])).ne_deferred

theorem invoke_deferred
    (h : (invoke policy oracle strategies kind).apply σ = (.ok (.deferred k), τ)) :
    ∃ π, (invocationPhases policy oracle strategies kind).apply σ = (.error (.deferred k), π) ∧
      τ.state = π.state := by
  cases invoke_ok h with
  | deferred hphases => exact ⟨_, hphases, rfl⟩

theorem invoke_waits
    (h : (invoke policy oracle strategies kind).apply σ = (.ok (.deferred k), τ)) :
    0 < k ∧ ∃ pushed, pushed.length = k ∧ σ.state.Waits kind pushed τ.state := by
  obtain ⟨π, hphases, hτ⟩ := invoke_deferred h
  obtain ⟨i, ρ, hρ, hresolves, hpos, hrun⟩ := invocationPhases_deferred hphases
  obtain ⟨pushed, hlength, hpushed, hframes⟩ := initializeClass_pushes hrun hpos
  obtain ⟨names, hhierarchy, -, hadded, hname⟩ := initializeClass_adds hrun (by simp [Failed])
  rw [hρ] at hpushed hframes hhierarchy
  rw [hτ]
  exact ⟨hpos, pushed, hlength, hpushed, hhierarchy, hframes, i, hresolves, (hadded _).2 hname⟩

theorem apply_preparePhase_ready (policy : InitializationPolicy) (oracle : Oracle)
    (hready : i.kind = .static → σ.state.hasKlass i.method.signature.className) :
    (preparePhase policy oracle i).apply σ = (.ok (), σ) := by
  unfold preparePhase
  split
  · next hstatic =>
    rw [apply_bind, apply_attempt, initializeClass_of_hasKlass policy oracle (hready hstatic)]
    rfl
  · rfl

/-- A call of a method whose class has a static entry initializes nothing. -/
theorem invocationPhases_prompt (policy : InitializationPolicy) (oracle : Oracle)
    (strategies : Strategies) (hready : ∀ i, σ.state.Resolves kind i →
      σ.state.hasKlass i.method.signature.className) :
    Prompt strategies (invocationPhases policy oracle strategies kind) σ := by
  refine .bind (resolvePhase_prompt kind σ) fun i ρ hresolve => ?_
  obtain ⟨hstate, -, hresolves, -⟩ := resolvePhase_ok hresolve
  refine .bind (checkPhase_prompt strategies i ρ) fun _ π hcheck => ?_
  obtain ⟨rfl, -⟩ := checkPhase_ok hcheck
  have hhas := hready i hresolves
  rw [← hstate] at hhas
  have hprepare := apply_preparePhase_ready policy oracle fun _ => hhas
  refine .bind (.of_unchanged hprepare) fun _ ω hω => ?_
  cases hprepare.symm.trans hω
  exact laterPhases_prompt fun _ => hresolves.mentions (by rw [hstate])

theorem invoke_prompt (policy : InitializationPolicy) (oracle : Oracle) (strategies : Strategies)
    (hready : ∀ i, σ.state.Resolves kind i → σ.state.hasKlass i.method.signature.className) :
    ((invoke policy oracle strategies kind).apply σ).2.queries = σ.queries ∧
      ∀ k, ((invoke policy oracle strategies kind).apply σ).1 ≠ .ok (.deferred k) := by
  have hprompt := invocationPhases_prompt policy oracle strategies hready
  refine ⟨?_, fun k hk => ?_⟩
  · have hqueries := hprompt.queries_eq
    rw [invoke, apply_bind, apply_attempt]
    rcases hphases : (invocationPhases policy oracle strategies kind).apply σ with ⟨e | c, π⟩
    · rw [hphases] at hqueries
      cases e <;> exact hqueries
    · rw [hphases] at hqueries
      exact hqueries
  · obtain ⟨π, hphases, -⟩ := invoke_deferred (Prod.ext hk rfl)
    exact hprompt.ne_deferred hphases

end Exec

namespace Engine

variable {engine : Engine} {σ τ : Session} {f : Frame} {rest : List Frame} {k : Nat}

/-- **A deferred call is made again.** If a call of a static method waits for initialization
methods, then there are some, and their frames are on the stack above the caller. Each of them can
return if the next one has any code. When all have returned, the stack is as it was, except that
the caller resumes where it stands, and the classes of the methods are initialized. The next step
makes the same call, asks nothing, and does not wait. -/
theorem step_deferred_resumes (hstack : σ.state.stack = f :: rest)
    (hopcode : f.code[f.pc]? = some InvokeKind.static.opcode)
    (hstep : engine.step.apply σ = (.ok (.deferred k), τ)) :
    1 ≤ k ∧ ∃ pushed : List Frame, pushed.length = k ∧
      (∀ g ∈ pushed, ∃ name, IsInitializerFrame σ.state.hierarchy name g) ∧
      τ.state.stack = pushed ++ { f with returnPc := f.pc } :: rest ∧
      (∀ i < k, (∀ g, pushed[i + 1]? = some g → g.code ≠ []) →
        ((Exec.completeFrame none).apply (τ.returning i)).1 = .ok ()) ∧
      (τ.returning k).state.stack = { f with returnPc := f.pc } :: rest ∧
      (∀ g ∈ pushed, ∃ l, (τ.returning k).state.statics.get? g.signature.className = some l ∧
        l.status = .initialized) ∧
      ∀ engine' : Engine,
        engine'.step.apply (τ.returning k) = (engine'.invoke .static).apply
          { τ.returning k with
            events := .instruction InvokeKind.static.opcode f.pc :: (τ.returning k).events } ∧
        (engine'.step.apply (τ.returning k)).2.queries = (τ.returning k).queries ∧
        ∀ j, (engine'.step.apply (τ.returning k)).1 ≠ .ok (.deferred j) := by
  rw [apply_step engine hstack hopcode] at hstep
  obtain ⟨hpos, pushed, rfl, hwaits⟩ := Exec.invoke_waits hstep
  have hreturned := hwaits.returning_eq hstack
  have hcode : f.pc < f.code.length := (List.getElem?_eq_some_iff.1 hopcode).1
  have hstack' : (τ.returning pushed.length).state.stack = { f with returnPc := f.pc } :: rest := by
    rw [hreturned]
  refine ⟨hpos, pushed, rfl, fun g hg => ?_, hwaits.stack_eq hstack, fun n hn hnext => ?_, hstack',
    fun g hg => hwaits.returning_initialized hstack hg, fun engine' => ?_⟩
  · obtain ⟨name, hinitializer, -⟩ := hwaits.frames g hg
    exact ⟨name, hinitializer⟩
  · refine Session.returning_ok (hwaits.stack_eq hstack) (fun g hg => (hwaits.starts hg).2) rfl
      hcode hn fun g hg => ?_
    rw [(hwaits.starts (List.mem_of_getElem? hg)).1]
    exact List.length_pos_iff.2 (hnext g hg)
  · have hagain := apply_step engine' hstack' hopcode
    rw [hagain]
    exact ⟨rfl, Exec.invoke_prompt engine'.policy engine'.oracle engine'.strategies
      fun j hj => hwaits.returning_ready hstack hj⟩

/-- A call that waits for four class initialization methods, made again when they have returned. -/
theorem step_tip_deferred :
    ∃ τ, Session.tipEngine.step.apply (.start Session.tipState) = (.ok (.deferred 4), τ) ∧
      (τ.returning 4).state.stack = [{ Session.tipFrame with returnPc := 0 }] ∧
      ∀ (engine' : Engine) (j : Nat),
        (engine'.step.apply (τ.returning 4)).1 ≠ .ok (.deferred j) := by
  have hstep : Session.tipEngine.step.apply (.start Session.tipState) =
      (.ok (.deferred 4), (Session.tipEngine.step.apply (.start Session.tipState)).2) :=
    Prod.ext (by decide +kernel) rfl
  have hstack : (Session.start Session.tipState).state.stack = [Session.tipFrame] := rfl
  obtain ⟨-, pushed, -, -, -, -, hreturned, -, hagain⟩ := step_deferred_resumes hstack rfl hstep
  exact ⟨_, hstep, hreturned, fun engine' j => (hagain engine').2.2 j⟩

end Engine

end SymbolicBytecode

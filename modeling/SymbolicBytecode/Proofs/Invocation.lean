import Mathlib
import SymbolicBytecode.Execution.Engine
import SymbolicBytecode.Proofs.Initialization
import SymbolicBytecode.Proofs.MethodResolution
import SymbolicBytecode.Proofs.PoolBuilding
import SymbolicBytecode.Proofs.References
import SymbolicBytecode.Proofs.Selection
import SymbolicBytecode.Proofs.TextConstants

/-!
# Calls and the program

What goes wrong in a call is for the program to see: as an exception, unless the oracle has no
answer or the method is native. The phases of a call rely on each other for that. `Completes` says
what a phase establishes for those after it, and that its interruptions are of these kinds. The one
internal fault that is left comes of a text that is too long for an array, which no class file has.
-/
namespace SymbolicBytecode

open Text (unitCount)

variable {policy : InitializationPolicy} {oracle : Oracle} {h : Hierarchy}

/-- The faults that end a call on purpose: the oracle has no answer, or the method is native. A
class with a text that is too long for an array is no class that could be initialized, either. -/
inductive Tolerated (oracle : Oracle) (h : Hierarchy) : ExecutionError → Prop
  | undecided {asked : List Query} {q : Query} {e : DecisionError}
      (hanswer : oracle.answer asked q = .error e) : Tolerated oracle h (.decision e)
  | native {m : Implementation} (hdeclared : h.Implements m) (hnative : m.isNative) :
      Tolerated oracle h (.nativeMethod m.signature)
  | overlong {e : Fault} (hfault : e.IsOverlong) (hlong : ¬h.HasShortTexts) :
      Tolerated oracle h (.state e)

/-- The interruptions of a call that are not internal faults. -/
inductive Proper (oracle : Oracle) (h : Hierarchy) : Interrupt → Prop
  | thrown (t : Throwable) (u : Unwinding) : Proper oracle h (.thrown t u)
  | deferred (frames : Nat) : Proper oracle h (.deferred frames)
  | fault {e : ExecutionError} (htolerated : Tolerated oracle h e) : Proper oracle h (.fault e)

namespace State

variable {s : State} {f : Frame} {rest : List Frame}

theorem currentFrame_of_stack (hstack : s.stack = f :: rest) : s.currentFrame = .ok f := by
  rw [currentFrame, hstack]

theorem currentFrame_ok (h : s.currentFrame = .ok f) : ∃ rest, s.stack = f :: rest := by
  unfold currentFrame at h
  split at h
  · next rest hstack =>
    cases h
    exact ⟨rest, hstack⟩
  · cases h

theorem opcodeAt_error {pc : Nat} {e : Fault} (h : f.opcodeAt pc = .error e) : CodeFault e := by
  unfold Frame.opcodeAt at h
  split at h
  · cases h
  · cases h
    exact .counter _ _

theorem currentReference_error {e : Fault} (hstack : s.stack = f :: rest)
    (h : s.currentReference = .error e) : CodeFault e := by
  rw [currentReference, currentFrame_of_stack hstack] at h
  rcases except_bind_error_iff.1 h with hframe | ⟨_, hframe, h⟩
  · cases hframe
  cases hframe
  rcases except_bind_error_iff.1 h with hword | ⟨index, -, h⟩
  · rcases except_bind_error_iff.1 hword with hhigh | ⟨high, -, hword⟩
    · exact opcodeAt_error hhigh
    rcases except_bind_error_iff.1 hword with hlow | ⟨low, -, hword⟩
    · exact opcodeAt_error hlow
    · cases hword
  rcases except_bind_error_iff.1 h with hmember | ⟨member, -, h⟩
  · obtain ⟨d, -, rfl⟩ := except_mapError_error_iff.1 hmember
    exact .index d
  · cases h

theorem currentReference_ok {g : Frame} {member : MemberRef}
    (h : s.currentReference = .ok (g, member)) :
    (∃ rest, s.stack = g :: rest) ∧ ∃ index, g.readWord (g.pc + 1) = .ok index ∧
      g.owner.pool.memberRef index = .ok member := by
  obtain ⟨frame, hframe, h⟩ := except_bind_ok_iff.1 h
  obtain ⟨index, hindex, h⟩ := except_bind_ok_iff.1 h
  obtain ⟨found, hfound, h⟩ := except_bind_ok_iff.1 h
  cases h
  exact ⟨currentFrame_ok hframe, index, hindex, except_mapError_ok_iff.1 hfound⟩

end State

/-- The operands of the call are there, and its receiver is a reference that may not be `null`. -/
structure Invocation.Checked (i : Invocation) (s : State) (f : Frame) : Prop where
  arity : ∃ n, i.arity = .ok n ∧ n ≤ f.operands.length
  receiver : i.kind.hasReceiver → ∃ n ref, i.arity = .ok n ∧
    f.peek? (n - 1) = some (.reference ref) ∧ s.resolve? ref ≠ some .null

theorem receiverProblem_eq_none {s : State} {v : Option Value} (h : receiverProblem s v = none) :
    ∃ ref, v = some (.reference ref) ∧ s.resolve? ref ≠ some .null := by
  unfold receiverProblem at h
  split at h
  · cases h
  · next ref =>
    refine ⟨ref, rfl, fun hnull => ?_⟩
    rw [hnull] at h
    cases h
  · cases h

theorem checkOperands_eq_none {s : State} {i : Invocation} {f : Frame} {rest : List Frame}
    (hstack : s.stack = f :: rest) (h : checkOperands s i = none) : i.Checked s f := by
  unfold checkOperands at h
  split at h
  · cases h
  split at h
  · next d g hd hg =>
    rw [State.currentFrame_of_stack hstack] at hg
    cases hg
    have harity : i.arity = .ok (d.params.length + if i.kind.hasReceiver then 1 else 0) := by
      rw [Invocation.arity, hd]
      rfl
    dsimp only at h
    by_cases hlength : f.operands.length < d.params.length + if i.kind.hasReceiver then 1 else 0
    · rw [if_pos hlength] at h
      cases h
    rw [if_neg hlength] at h
    refine ⟨⟨_, harity, Nat.not_lt.1 hlength⟩, fun hreceiver => ?_⟩
    rw [if_pos hreceiver] at h harity
    obtain ⟨ref, hpeek, hnull⟩ := receiverProblem_eq_none h
    exact ⟨_, ref, harity, hpeek, hnull⟩
  · cases h

theorem Frame.create_error {signature : Signature} {owner : ClassFile} {m : Method}
    {args : List Value} {e : Fault} (hnative : ¬m.accessFlags.isNative)
    (hcreate : Frame.create signature owner m args = .error e) :
    e = .abstractMethod signature ∨ ∃ slot, e = .invalidSlot signature slot := by
  unfold Frame.create at hcreate
  split at hcreate
  · rw [if_neg hnative] at hcreate
    cases hcreate
    exact .inl rfl
  · split at hcreate
    · next slot _ =>
      cases hcreate
      exact .inr ⟨slot, rfl⟩
    · cases hcreate

namespace Exec

variable {α β : Type} {σ τ : Session}

/-- Where the operation comes to a result, the result and the session after it are as stated; where
it is interrupted, that is no internal fault. -/
def Completes (oracle : Oracle) (h : Hierarchy) (x : Exec Interrupt α) (σ : Session)
    (post : α → Session → Prop) : Prop :=
  match x.apply σ with
  | (.ok a, τ) => post a τ
  | (.error i, _) => Proper oracle h i

namespace Completes

variable {post : α → Session → Prop}

theorem of_ok {x : Exec Interrupt α} {a : α} (hx : x.apply σ = (.ok a, τ)) (hpost : post a τ) :
    Completes oracle h x σ post := by
  rw [Completes, hx]
  exact hpost

theorem of_error {x : Exec Interrupt α} {i : Interrupt} (hx : x.apply σ = (.error i, τ))
    (hi : Proper oracle h i) : Completes oracle h x σ post := by
  rw [Completes, hx]
  exact hi

theorem bind {x : Exec Interrupt α} {f : α → Exec Interrupt β} {post' : β → Session → Prop}
    (hx : Completes oracle h x σ post)
    (hf : ∀ a τ, post a τ → Completes oracle h (f a) τ post') :
    Completes oracle h (x >>= f) σ post' := by
  unfold Completes at hx ⊢
  rw [apply_bind]
  rcases hr : x.apply σ with ⟨i | a, τ⟩
  · rwa [hr] at hx
  · rw [hr] at hx
    exact hf a τ hx

theorem ok_bind {x : Exec Interrupt α} {f : α → Exec Interrupt β} {post : β → Session → Prop}
    {a : α} (hx : x.apply σ = (.ok a, τ)) (hf : Completes oracle h (f a) τ post) :
    Completes oracle h (x >>= f) σ post := by
  unfold Completes
  rwa [apply_bind, hx]

theorem state_bind {f : State → Exec Interrupt β} {post : β → Session → Prop}
    (hf : Completes oracle h (f σ.state) σ post) :
    Completes oracle h (Exec.state >>= f) σ post := by
  unfold Completes
  rwa [apply_state_bind]

theorem note_bind {e : Event} {f : Unit → Exec Interrupt β} {post : β → Session → Prop}
    (hf : Completes oracle h (f ()) { σ with events := e :: σ.events } post) :
    Completes oracle h (Exec.note e >>= f) σ post := by
  unfold Completes
  rwa [apply_note_bind]

theorem attempt_bind {ε : Type} {x : Exec ε α} {f : Except ε α → Exec Interrupt β}
    {post : β → Session → Prop}
    (hf : ∀ r τ, x.apply σ = (r, τ) → Completes oracle h (f r) τ post) :
    Completes oracle h (attempt x >>= f) σ post := by
  unfold Completes
  rw [apply_bind, apply_attempt]
  exact hf _ _ rfl

theorem interruptWith (t : Throwable) (hclasses : σ.state.hierarchy.HasThrowables)
    (hstack : σ.state.stack ≠ []) : Completes oracle h (interruptWith t) σ post := by
  obtain ⟨u, τ, _, _, _, _, hrun, -⟩ := createAndThrow_spec t hclasses hstack
  refine .of_error (i := .thrown t u) (τ := τ) ?_ (.thrown t u)
  rw [Exec.interruptWith, apply_bind, apply_attempt, hrun]
  rfl

end Completes

variable {f : Frame} {rest : List Frame} {i : Invocation}

theorem resolvePhase_completes (oracle : Oracle) (h : Hierarchy) (kind : InvokeKind)
    (hclasses : σ.state.hierarchy.HasThrowables) (hstack : σ.state.stack = f :: rest) :
    Completes oracle h (resolvePhase kind) σ fun i τ =>
      τ.state = σ.state ∧ i.kind = kind ∧ i.pc = f.pc := by
  have hnonempty : σ.state.stack ≠ [] := hstack ▸ List.cons_ne_nil f rest
  refine .state_bind ?_
  split
  · next e he =>
    cases State.currentReference_error hstack he with
    | index d => exact .note_bind (.interruptWith _ hclasses hnonempty)
    | counter method pc => exact .note_bind (.interruptWith _ hclasses hnonempty)
  next g member hreference =>
  obtain ⟨⟨_, hstack'⟩, -⟩ := State.currentReference_ok hreference
  cases hstack.symm.trans hstack'
  dsimp only
  split
  · exact .note_bind (.interruptWith _ hclasses hnonempty)
  split
  · exact .interruptWith _ hclasses hnonempty
  split
  · exact .note_bind (.interruptWith _ hclasses hnonempty)
  · exact .note_bind (.of_ok rfl ⟨rfl, rfl, rfl⟩)

theorem checkPhase_completes (oracle : Oracle) (h : Hierarchy) (i : Invocation)
    (hclasses : σ.state.hierarchy.HasThrowables) (hstack : σ.state.stack = f :: rest) :
    Completes oracle h (checkPhase .standard i) σ fun _ τ => τ = σ ∧ i.Checked σ.state f := by
  refine .state_bind ?_
  split
  · exact .interruptWith _ hclasses (hstack ▸ List.cons_ne_nil f rest)
  · next hnone => exact .of_ok rfl ⟨rfl, checkOperands_eq_none hstack hnone⟩

theorem initializeClass_error {className : String} {e : ExecutionError}
    (hclasses : σ.state.hierarchy.Includes .bootstrap) (hstack : σ.state.stack ≠ [])
    (hrun : (initializeClass policy oracle className).apply σ = (.error e, τ)) :
    σ.state.SameThread τ.state ∧
      (e = .state .heapMemoryExhausted ∨ Tolerated oracle σ.state.hierarchy e) := by
  cases initializeClass_outcome hrun with
  | @failed ρ _ cause _ hthread hforeseen hfail =>
    rcases failInitialization_error hfail with ⟨t, -, hthrow⟩ | ⟨rfl, rfl⟩
    · have hthrowables : ρ.state.hierarchy.HasThrowables :=
        hthread.hierarchy ▸ hclasses.hasThrowables
      obtain ⟨_, _, _, _, _, _, hok, -⟩ :=
        createAndThrow_spec t hthrowables (hthread.stack ▸ hstack)
      cases hthrow.symm.trans hok
    · refine ⟨hthread, ?_⟩
      cases hforeseen hclasses with
      | exhausted => exact .inl rfl
      | undecided hanswer => exact .inr (.undecided hanswer)
      | overlong hfault hlong => exact .inr (.overlong hfault hlong)

theorem initializeClass_ready {className : String} {outcome : Initialization}
    (hrun : (initializeClass policy oracle className).apply σ = (.ok outcome, τ))
    (hready : outcome = .already ∨ outcome = .created 0) : σ.state.SameThread τ.state := by
  cases initializeClass_outcome hrun with
  | already hthread => exact hthread
  | @created _ t staged _ _ hstaged hstate =>
    have hnone : staged.reverse.filterMap Staged.frame = [] := by simpa using hready
    obtain ⟨chain, assumed, -, hgrows, -⟩ := hstaged
    rw [hnone] at hstate
    have hthread : σ.state.SameThread t := (State.Grows.growsTo hgrows).sameThread
    rw [hstate]
    exact ⟨hthread.hierarchy, hthread.stack, hthread.uncaught⟩
  | failed _ _ hfail =>
    obtain ⟨t, u, -, rfl, -⟩ := failInitialization_ok hfail
    simp at hready

theorem preparePhase_completes (policy : InitializationPolicy) (oracle : Oracle) (i : Invocation)
    (hclasses : σ.state.hierarchy.Includes .bootstrap) (hstack : σ.state.stack ≠ []) :
    Completes oracle σ.state.hierarchy (preparePhase policy oracle i) σ fun _ τ =>
      σ.state.SameThread τ.state ∧ (i.kind.hasReceiver → τ = σ) := by
  unfold preparePhase
  split
  · next hstatic =>
    have hno : ¬i.kind.hasReceiver := by simp [hstatic, InvokeKind.hasReceiver]
    refine .attempt_bind fun r τ hrun => ?_
    rcases r with e | outcome
    · obtain ⟨hthread, rfl | htolerated⟩ := initializeClass_error hclasses hstack hrun
      · exact .interruptWith _ (hthread.hierarchy ▸ hclasses.hasThrowables) (hthread.stack ▸ hstack)
      · cases htolerated with
        | undecided hanswer => exact .of_error rfl (.fault (.undecided hanswer))
        | native hdeclared hnative => exact .of_error rfl (.fault (.native hdeclared hnative))
        | overlong hfault hlong =>
          cases hfault <;> exact .of_error rfl (.fault (.overlong (by constructor) hlong))
    · cases outcome with
      | already =>
        exact .of_ok rfl ⟨initializeClass_ready hrun (.inl rfl), fun hyes => absurd hyes hno⟩
      | failed t u => exact .of_error rfl (.thrown t u)
      | created frames =>
        rcases Nat.eq_zero_or_pos frames with rfl | hpos
        · exact .of_ok rfl ⟨initializeClass_ready hrun (.inr rfl), fun hyes => absurd hyes hno⟩
        · dsimp only
          rw [if_pos hpos]
          exact .of_error rfl (.deferred frames)
  · exact .of_ok rfl ⟨⟨rfl, rfl, rfl⟩, fun _ => rfl⟩

/-- The check that a call has a receiver, and that references do not dangle, give the class in which
selection starts. -/
theorem receiverClassName_ok (hchecked : i.Checked σ.state f) (hreceiver : i.kind.hasReceiver)
    (hlive : σ.state.NoDangling) (hstack : σ.state.stack = f :: rest) :
    ∃ className, (receiverClassName i).apply σ = (.ok className, σ) := by
  obtain ⟨n, ref, harity, hpeek, hnotNull⟩ := hchecked.receiver hreceiver
  have hmem : Value.reference ref ∈ f.operands := List.mem_of_getElem? hpeek
  have href : ref.Live σ.state.heap :=
    hlive.operands f (hstack ▸ List.mem_cons_self) _ hmem
  simp only [receiverClassName, apply_bind, apply_state, apply_liftM, harity, Except.mapError,
    State.currentFrame_of_stack hstack, hpeek]
  rcases hresolve : σ.state.resolve? ref with _ | _ | position
  · cases ref with
    | concrete position => cases hresolve
    | symbolic ref => exact ⟨ref.staticType, rfl⟩
  · exact absurd hresolve hnotNull
  · obtain ⟨className, hclass⟩ := hlive.classOf_ok href hresolve
    refine ⟨className, ?_⟩
    simp only [hclass, apply_liftM]

/-- A call of whatever kind selects a declared method or fails to link. -/
theorem lookup_ok (hreceiver : i.kind.hasReceiver →
      ∃ className, (receiverClassName i).apply σ = (.ok className, σ)) :
    ∃ r, (lookup i).apply σ = (.ok r, σ) ∧
      ∀ m, r = .ok m → σ.state.hierarchy.ImplementsAs i.method.signature m := by
  rw [lookup, apply_state_bind]
  cases hkind : i.kind with
  | static => exact ⟨_, rfl, fun m hm => Hierarchy.implements_of_lookupStatic hm⟩
  | special => exact ⟨_, rfl, fun m hm => Hierarchy.implements_of_lookupSpecial hm⟩
  | virtual =>
    obtain ⟨className, hclass⟩ := hreceiver (by rw [hkind]; rfl)
    refine ⟨σ.state.hierarchy.lookupVirtual className i.method false, ?_,
      fun m hm => Hierarchy.implements_of_lookupVirtual hm⟩
    rw [apply_bind, hclass]
    rfl
  | interface =>
    obtain ⟨className, hclass⟩ := hreceiver (by rw [hkind]; rfl)
    refine ⟨σ.state.hierarchy.lookupVirtual className i.method true, ?_,
      fun m hm => Hierarchy.implements_of_lookupVirtual hm⟩
    rw [apply_bind, hclass]
    rfl

/-- A call that goes by selection has found a declared method, if it has found one. -/
def Selects (h : Hierarchy) (i : Invocation) (found : Option Implementation) : Prop :=
  i.method.polymorphic = false → ∀ m, found = some m → h.Implements m

theorem selectPhase_completes (oracle : Oracle) (i : Invocation)
    (hclasses : σ.state.hierarchy.HasThrowables) (hstack : σ.state.stack ≠ [])
    (hreceiver : i.kind.hasReceiver →
      ∃ className, (receiverClassName i).apply σ = (.ok className, σ)) :
    Completes oracle h (selectPhase i) σ fun found τ =>
      τ = σ ∧ Selects σ.state.hierarchy i found := by
  unfold selectPhase
  split
  · next hpolymorphic =>
    exact .of_ok rfl ⟨rfl, fun hnot => absurd hpolymorphic (by rw [hnot]; simp)⟩
  obtain ⟨r, hlookup, himplements⟩ := lookup_ok hreceiver
  refine .ok_bind (apply_mapError_ok_iff.2 hlookup) ?_
  split
  · next m =>
    exact .of_ok rfl ⟨rfl, fun _ m' hm' => (himplements m' (by cases hm'; rfl)).implements⟩
  · exact .of_ok rfl ⟨rfl, nofun⟩
  · exact .note_bind (.interruptWith _ hclasses hstack)

theorem apply_overridePhase_standard (i : Invocation) (found : Option Implementation)
    (σ : Session) : (overridePhase .standard i found).apply σ = (.ok found, σ) := by
  rw [overridePhase, apply_state_bind]
  dsimp only [Strategies.standard]
  rw [if_neg (not_not_intro rfl)]
  rfl

theorem apply_updateFrame {g : Frame → Except Fault (α × Frame)} {a : α} {f' : Frame}
    (hstack : σ.state.stack = f :: rest) (hg : g f = .ok (a, f')) :
    (updateFrame g).apply σ =
      (.ok a, { σ with state := { σ.state with stack := f' :: rest } }) := by
  rw [updateFrame, apply_state_bind, hstack]
  exact apply_lift_bind_ok_iff.2 ⟨(a, f'), hg, rfl⟩

theorem pushPrepared_ne_error {frame : Frame} {offset : Nat} {e : Fault} :
    (pushPrepared frame offset).apply σ ≠ (.error e, τ) := by
  rw [pushPrepared, apply_note_bind, apply_state_bind]
  split <;> simp

theorem pushFrame_error {m : Implementation} {offset : Nat} {args : List Value} {e : Fault}
    (hdeclared : σ.state.hierarchy.Implements m) (hnative : ¬m.isNative)
    (hrun : (pushFrame m.signature false offset args).apply σ = (.error e, τ)) :
    τ = σ ∧ (e = .abstractMethod m.signature ∨ ∃ slot, e = .invalidSlot m.signature slot) := by
  obtain ⟨d, hd, rfl⟩ := hdeclared
  have hfind : σ.state.hierarchy.find d.owner.name = .ok d.owner :=
    Hierarchy.find_ok_iff.2 hd.owner
  rw [pushFrame, apply_state_bind] at hrun
  rcases apply_lift_bind_error_iff.1 hrun with ⟨hc, -⟩ | ⟨c, hc, hrun⟩
  · obtain ⟨_, hc, -⟩ := except_mapError_error_iff.1 hc
    cases hc.symm.trans hfind
  cases (except_mapError_ok_iff.1 hc).symm.trans hfind
  have hm : d.owner.method? d.implementation.signature.name
      d.implementation.signature.descriptor = some d.method := hd.method
  rw [hm] at hrun
  rcases apply_lift_bind_error_iff.1 hrun with ⟨hcreate, rfl⟩ | ⟨frame, -, hrun⟩
  · exact ⟨rfl, Frame.create_error hnative hcreate⟩
  · exact absurd hrun pushPrepared_ne_error

theorem callPhase_completes (oracle : Oracle) {m : Implementation}
    (hclasses : σ.state.hierarchy.HasThrowables) (hstack : σ.state.stack = f :: rest)
    (hchecked : ∃ n, i.arity = .ok n ∧ n ≤ f.operands.length)
    (hdeclared : σ.state.hierarchy.Implements m) (hnative : ¬m.isNative) :
    Completes oracle h (callPhase .standard i m) σ fun _ _ => True := by
  obtain ⟨n, harity, hn⟩ := hchecked
  -- The frame without its operands is still there when an exception has to be thrown.
  let f' : Frame := { f with operands := f.operands.drop n }
  let ρ : Session := { σ with state := { σ.state with stack := f' :: rest } }
  have hpop : (popOperands n).apply σ = (.ok (f.operands.take n).reverse, ρ) :=
    apply_updateFrame hstack (by rw [Frame.pop, if_pos hn])
  have hargs : i.arity.mapError Fault.descriptor = .ok n := except_mapError_ok_iff.2 harity
  refine .ok_bind (apply_mapError_ok_iff.2 (apply_lift_bind_ok_iff.2 ⟨n, hargs, hpop⟩)) ?_
  refine .attempt_bind fun r τ hrun => ?_
  rcases r with e | _
  · have hclasses' : ρ.state.hierarchy.HasThrowables := hclasses
    have hstack' : ρ.state.stack ≠ [] := List.cons_ne_nil f' rest
    obtain ⟨rfl, rfl | ⟨slot, rfl⟩⟩ := pushFrame_error (σ := ρ) hdeclared hnative hrun
    · exact .interruptWith _ hclasses' hstack'
    · exact .interruptWith _ hclasses' hstack'
  · exact .note_bind (.of_ok rfl trivial)

theorem commitPhase_completes (oracle : Oracle) {found : Option Implementation}
    (hclasses : σ.state.hierarchy.HasThrowables) (hstack : σ.state.stack = f :: rest)
    (hcode : f.pc < f.code.length) (hpc : i.pc = f.pc)
    (harity : ∃ n, i.arity = .ok n ∧ n ≤ f.operands.length)
    (hselects : Selects σ.state.hierarchy i found) :
    Completes oracle σ.state.hierarchy (commitPhase .standard i found) σ fun _ _ => True := by
  have hnonempty : σ.state.stack ≠ [] := hstack ▸ List.cons_ne_nil f rest
  unfold commitPhase
  split
  · exact .interruptWith _ hclasses hnonempty
  next m =>
  split
  · let f' : Frame := { f with code := f.code.set i.pc invokeHandleOpcode }
    have hpatch : (do return ((), ← f.patch i.pc invokeHandleOpcode)) = Except.ok ((), f') := by
      rw [Frame.patch, if_pos (hpc ▸ hcode)]
      rfl
    refine .ok_bind (apply_mapError_ok_iff.2 (apply_updateFrame hstack hpatch)) ?_
    exact .note_bind (.of_ok rfl trivial)
  next hpolymorphic =>
  have hdeclared := hselects (Bool.not_eq_true _ ▸ hpolymorphic) m rfl
  split
  · next hnative => exact .of_error rfl (.fault (.native hdeclared hnative))
  next hnative =>
  split
  · exact .interruptWith _ hclasses hnonempty
  · exact callPhase_completes oracle hclasses hstack harity hdeclared hnative

theorem invocationPhases_completes (policy : InitializationPolicy) (oracle : Oracle)
    (kind : InvokeKind) (hclasses : σ.state.hierarchy.Includes .bootstrap)
    (hlive : σ.state.NoDangling) (hstack : σ.state.stack = f :: rest)
    (hcode : f.pc < f.code.length) :
    Completes oracle σ.state.hierarchy (invocationPhases policy oracle .standard kind) σ
      fun _ _ => True := by
  refine .bind (resolvePhase_completes oracle _ kind hclasses.hasThrowables hstack) ?_
  rintro i τ ⟨hτ, -, hpc⟩
  rw [← hτ] at hclasses hlive hstack ⊢
  refine .bind (checkPhase_completes oracle _ i hclasses.hasThrowables hstack) ?_
  rintro _ τ ⟨rfl, hchecked⟩
  have hnonempty : τ.state.stack ≠ [] := hstack ▸ List.cons_ne_nil f rest
  refine .bind (preparePhase_completes policy oracle i hclasses hnonempty) ?_
  rintro _ ρ ⟨hthread, hsame⟩
  have hclasses' : ρ.state.hierarchy.HasThrowables := hthread.hierarchy ▸ hclasses.hasThrowables
  have hstack' : ρ.state.stack = f :: rest := hthread.stack.trans hstack
  rw [← hthread.hierarchy]
  -- the heap may have changed by now, but not in a call with a receiver, which was checked before
  refine .bind (selectPhase_completes oracle i hclasses' (hthread.stack ▸ hnonempty) ?_) ?_
  · intro hreceiver
    rw [hsame hreceiver]
    exact receiverClassName_ok hchecked hreceiver hlive hstack
  rintro found ρ ⟨rfl, hselects⟩
  refine .ok_bind (apply_overridePhase_standard i found ρ) ?_
  exact commitPhase_completes oracle hclasses' hstack' hcode hpc hchecked.arity hselects

theorem Completes.invoke {strategies : Strategies} {kind : InvokeKind}
    {post : Completion → Session → Prop}
    (hphases : Completes oracle h (invocationPhases policy oracle strategies kind) σ post) :
    (∃ c τ, (invoke policy oracle strategies kind).apply σ = (.ok c, τ)) ∨
      ∃ e τ, (invoke policy oracle strategies kind).apply σ = (.error e, τ) ∧
        Tolerated oracle h e := by
  unfold Completes at hphases
  rw [Exec.invoke, apply_bind, apply_attempt]
  rcases hrun : (invocationPhases policy oracle strategies kind).apply σ with ⟨i | c, τ⟩
  · rw [hrun] at hphases
    cases hphases with
    | thrown t u => exact .inl ⟨.thrown t u, _, rfl⟩
    | deferred frames => exact .inl ⟨.deferred frames, _, rfl⟩
    | fault htolerated => exact .inr ⟨_, _, rfl, htolerated⟩
  · exact .inl ⟨c, _, rfl⟩

/-- A fault in the initialization of the class of a static method ends the call. -/
theorem invoke_static_fault {strategies : Strategies} {i : Invocation} {ρ : Session} {e : Fault}
    (hresolve : (resolvePhase .static).apply σ = (.ok i, ρ)) (hkind : i.kind = .static)
    (hcheck : strategies.check ρ.state i = none)
    (hfails : ((initializeClass policy oracle i.method.signature.className).apply ρ).1 =
      .error (.state e))
    (hmemory : e ≠ .heapMemoryExhausted) :
    ((invoke policy oracle strategies .static).apply σ).1 = .error (.state e) := by
  have hprepare : ((preparePhase policy oracle i).apply ρ).1 = .error (.fault (.state e)) := by
    rw [preparePhase, if_pos hkind, apply_bind, apply_attempt, hfails]
    dsimp only
    split
    all_goals simp_all
  have hphases : ((invocationPhases policy oracle strategies .static).apply σ).1 =
      .error (.fault (.state e)) := by
    rw [invocationPhases, apply_bind, hresolve]
    dsimp only
    rw [checkPhase, bind_assoc, apply_state_bind, hcheck, pure_bind, apply_bind,
      apply_of_fst hprepare]
  rw [invoke, apply_bind, apply_attempt, hphases]
  rfl

end Exec

theorem InvokeKind.ofOpcode?_opcode (kind : InvokeKind) :
    InvokeKind.ofOpcode? kind.opcode = some kind := by
  cases kind <;> decide

theorem InvokeKind.opcode_of_ofOpcode? {opcode : UInt8} {kind : InvokeKind}
    (h : InvokeKind.ofOpcode? opcode = some kind) : kind.opcode = opcode := by
  simpa using List.find?_some h

namespace Engine

variable {σ : Session} {f : Frame} {rest : List Frame} {kind : InvokeKind}

theorem initialState_of_frame (engine : Engine) {h : Hierarchy} {root : Signature}
    {args : List Value} {c : ClassFile} {m : Method} {frame : Frame}
    (hget : h.get? root.className = some c)
    (hmethod : c.method? root.name root.descriptor = some m)
    (hframe : Frame.create root c m args = .ok frame) :
    engine.initialState h root args =
      .ok { State.create h engine.heapLimit engine.host with stack := [frame] } := by
  have hfind : (h.find root.className).mapError Fault.link = .ok c :=
    except_mapError_ok_iff.2 (Hierarchy.find_ok_iff.2 hget)
  have hrun : (Exec.pushFrame root true 0 args).apply
      (.start (.create h engine.heapLimit engine.host)) = (.ok (), .start
        { State.create h engine.heapLimit engine.host with stack := [frame] }) := by
    rw [Exec.pushFrame, Exec.apply_state_bind]
    refine Exec.apply_lift_bind_ok_iff.2 ⟨c, hfind, ?_⟩
    rw [hmethod]
    exact Exec.apply_lift_bind_ok_iff.2 ⟨frame, hframe, rfl⟩
  rw [initialState, hrun]
  rfl

theorem apply_step (engine : Engine) (hstack : σ.state.stack = f :: rest)
    (hopcode : f.code[f.pc]? = some kind.opcode) :
    engine.step.apply σ = (engine.invoke kind).apply
      { σ with events := .instruction kind.opcode f.pc :: σ.events } := by
  simp only [step, Exec.apply_bind, Exec.apply_state, Exec.apply_liftM, Except.mapError,
    State.currentFrame_of_stack hstack, Frame.currentOpcode, Frame.opcodeAt, hopcode,
    Exec.apply_note, InvokeKind.ofOpcode?_opcode]

/-- No other instructions than calls are executed. -/
theorem step_ok {engine : Engine} {c : Completion} {τ : Session}
    (hstep : engine.step.apply σ = (.ok c, τ)) :
    ∃ f rest kind, σ.state.stack = f :: rest ∧ f.code[f.pc]? = some kind.opcode ∧
      (engine.invoke kind).apply { σ with events := .instruction kind.opcode f.pc :: σ.events } =
        (.ok c, τ) := by
  rw [step, Exec.apply_state_bind] at hstep
  obtain ⟨f, hframe, hstep⟩ := Exec.apply_lift_bind_ok_iff.1 hstep
  obtain ⟨opcode, hopcode, hstep⟩ := Exec.apply_lift_bind_ok_iff.1 hstep
  obtain ⟨rest, hstack⟩ := State.currentFrame_ok (except_mapError_ok_iff.1 hframe)
  replace hopcode := except_mapError_ok_iff.1 hopcode
  rw [Exec.apply_note_bind] at hstep
  split at hstep
  · next kind hkind =>
    obtain rfl := InvokeKind.opcode_of_ofOpcode? hkind
    unfold Frame.currentOpcode Frame.opcodeAt at hopcode
    split at hopcode
    · next hbyte =>
      cases hopcode
      exact ⟨f, rest, kind, hstack, hbyte, hstep⟩
    · cases hopcode
  · cases hstep

/-- **What goes wrong in a call is for the program to see.** With the usual strategies a call of any
kind comes to an end, in an exception if need be, unless the oracle has no answer or the method is
native. There are no other faults, however malformed the code and the classes are, as long as there
can be arrays for the characters of their texts. That is so for every class that was read from a
class file; a class made in another way may have a text of 2^31 units or more, and cannot be
initialized. -/
theorem step_call_no_internal_fault (engine : Engine) (hstrategies : engine.strategies = .standard)
    (hclasses : σ.state.hierarchy.ExtendsBootstrap) (hlive : σ.state.NoDangling)
    (hstack : σ.state.stack = f :: rest) (hopcode : f.code[f.pc]? = some kind.opcode) :
    (∃ c τ, engine.step.apply σ = (.ok c, τ)) ∨
    (∃ e τ, engine.step.apply σ = (.error (.decision e), τ) ∧
      ∃ asked q, engine.oracle.answer asked q = .error e) ∨
    (∃ m τ, engine.step.apply σ = (.error (.nativeMethod m.signature), τ) ∧
      σ.state.hierarchy.Implements m ∧ m.isNative) ∨
    ∃ fault τ, engine.step.apply σ = (.error (.state fault), τ) ∧ fault.IsOverlong ∧
      ∃ name c, σ.state.hierarchy.get? name = some c ∧ c.Overlong := by
  rw [apply_step engine hstack hopcode, invoke, hstrategies]
  have hcode : f.pc < f.code.length := (List.getElem?_eq_some_iff.1 hopcode).1
  have hphases := Exec.invocationPhases_completes engine.policy engine.oracle kind
    (σ := { σ with events := .instruction kind.opcode f.pc :: σ.events }) hclasses.includes hlive
    hstack hcode
  rcases hphases.invoke with hok | ⟨_, τ, hrun, htolerated⟩
  · exact .inl hok
  · cases htolerated with
    | undecided hanswer => exact .inr (.inl ⟨_, τ, hrun, _, _, hanswer⟩)
    | native hdeclared hnative => exact .inr (.inr (.inl ⟨_, τ, hrun, hdeclared, hnative⟩))
    | overlong hfault hlong =>
      exact .inr (.inr (.inr ⟨_, τ, hrun, hfault, Hierarchy.exists_overlong hlong⟩))

/-- A class with a method that is not abstract but has no code, and with a reference to it. -/
def bodiless : ClassFile :=
  ({ ClassOutline.publicClass "Bodiless" with
    constants := [.methodRef ⟨"Bodiless", "run", "()V"⟩]
    methods := [⟨0x0001, "run", "()V", none⟩] } : ClassOutline).build

/-- A frame about to call the method on the first object in the heap. -/
def bodilessCaller : Frame :=
  ⟨⟨"Bodiless", "main", "()V"⟩, bodiless, [0xb6, 0, 6], [], 0, 0, [], [.reference (.concrete 0)]⟩

def bodilessCall : State :=
  { State.create (Hierarchy.bootstrap.add bodiless) (some 1) .ample with
    stack := [bodilessCaller]
    heap := Heap.empty.add (.object "Bodiless" ∅) }

theorem bodilessCall_noDangling : bodilessCall.NoDangling := by
  have hplain : (HeapObject.object "Bodiless" ∅).IsPlain := fun ref => List.not_mem_nil
  refine ((State.NoDangling.create _ (some 1) .ample).adding hplain).withStack fun f hf => ?_
  rw [List.mem_singleton.1 hf]
  refine ⟨fun v hv => absurd hv List.not_mem_nil, fun v hv => ?_⟩
  rw [List.mem_singleton.1 hv]
  exact Nat.zero_lt_one

/-- The call, by a machine whose oracle takes no class to have been initialized before. -/
def callsBodiless : Exec ExecutionError Completion :=
  step ⟨some 1, .ample, ⟨false, false⟩, .fixed false, .standard⟩

/-- The method is found, but its frame cannot be made once its receiver is off the operand stack. -/
theorem step_bodilessCall :
    bodilessCall.hierarchy.ExtendsBootstrap ∧ bodilessCall.NoDangling ∧
    bodilessCaller.code[bodilessCaller.pc]? = some InvokeKind.virtual.opcode ∧
    ((∃ c τ, callsBodiless.apply (.start bodilessCall) = (.ok c, τ)) ∨
      ∃ (m : Implementation) (τ : Session), callsBodiless.apply (.start bodilessCall) =
        (.error (.nativeMethod m.signature), τ) ∧ m.isNative) := by
  have hclasses : bodilessCall.hierarchy.ExtendsBootstrap :=
    Hierarchy.extendsBootstrap_add (by decide +kernel)
  have hopcode : bodilessCaller.code[bodilessCaller.pc]? = some InvokeKind.virtual.opcode := rfl
  refine ⟨hclasses, bodilessCall_noDangling, hopcode, ?_⟩
  rcases step_call_no_internal_fault ⟨some 1, .ample, ⟨false, false⟩, .fixed false, .standard⟩
      (σ := .start bodilessCall) rfl hclasses bodilessCall_noDangling rfl hopcode with
    hok | ⟨e, τ, -, asked, q, hanswer⟩ | ⟨m, τ, hrun, -, hnative⟩ |
      ⟨_, _, -, -, name, c, hget, hlong⟩
  · exact .inl hok
  · cases hanswer
  · exact .inr ⟨m, τ, hrun, hnative⟩
  · have hbrief : ∀ p ∈ bodilessCall.hierarchy.classes.entries, p.2.pool.IsBrief := by
      decide +kernel
    obtain ⟨index, text, hliteral, htext⟩ := hlong.text
    have hshort : Text.IsShort text :=
      (hbrief (name, c) ((Table.mem_entries_iff _ name c).2 hget)).hasShortTexts index text hliteral
    exact absurd hshort (Nat.not_lt.2 htext)

/-- A class with a static method and a text. -/
def verbose (text : String) : ClassFile :=
  ({ ClassOutline.publicClass "Verbose" with
    constants := [.string text]
    fields := [⟨0x0018, "TEXT", "Ljava/lang/String;", some 2⟩]
    methods := [⟨0x0009, "run", "()V", some ⟨0, 0, [0xb1], []⟩⟩] } : ClassOutline).build

/-- A frame about to call the method of that class. -/
def verboseCaller : Frame :=
  ⟨⟨"Caller", "main", "()V"⟩, ({ ClassOutline.publicClass "Caller" with
    constants := [.methodRef ⟨"Verbose", "run", "()V"⟩] } : ClassOutline).build,
    [0xb8, 0, 6], [], 0, 0, [], []⟩

def verboseCall (text : String) : State :=
  { State.create (Hierarchy.bootstrap.add (verbose text)) none .ample with
    stack := [verboseCaller] }

variable (text : String)

theorem methodDescriptor_verbose :
    Signature.methodDescriptor ⟨"Verbose", "run", "()V"⟩ = .ok ⟨[], none⟩ := by
  decide +kernel

theorem literal_verbose : (verbose text).pool.literal 2 = .ok (.string text) :=
  (ClassOutline.enterConstants_extends _).pool.literal_eq rfl

theorem verboseCall_extendsBootstrap : (verboseCall text).hierarchy.ExtendsBootstrap := by
  have hnew : "Verbose" ∉ Bootstrap.outlines.map ClassOutline.name := by decide +kernel
  exact Hierarchy.extendsBootstrap_add hnew

theorem get?_verbose : (verboseCall text).hierarchy.get? "Verbose" = some (verbose text) :=
  (Hierarchy.get?_add ..).trans (if_pos rfl)

theorem resolveMethod_verbose :
    (verboseCall text).hierarchy.resolveMethod "Caller" ⟨"Verbose", "run", "()V"⟩ false =
      .ok ⟨⟨"Verbose", "run", "()V"⟩, 0x0009, false⟩ := by
  have hobject := (verboseCall_extendsBootstrap text).includes _ _ Hierarchy.bootstrap_object
  have hchain : (verboseCall text).hierarchy.superclassChain "Verbose" =
      .ok [verbose text, Bootstrap.object.build] :=
    Hierarchy.superclassChain_ok_iff.2 (.step (get?_verbose text) rfl (.root hobject rfl))
  have hplain : (verbose text).polymorphicMethod? "run" = none := by
    have hname : ¬("Verbose" = methodHandleClass ∨ "Verbose" = varHandleClass) := by decide
    exact if_neg hname
  have hmethod : (verbose text).method? "run" "()V" =
      some ⟨0x0009, "run", "()V", some ⟨0, 0, [0xb1], []⟩⟩ := by
    simp [ClassFile.method?, verbose, ClassOutline.build]
  have hfound : (verboseCall text).hierarchy.findInClass (verbose text)
      ⟨"Verbose", "run", "()V"⟩ false =
        .ok (some ⟨verbose text, ⟨0x0009, "run", "()V", some ⟨0, 0, [0xb1], []⟩⟩⟩) := by
    simp [Hierarchy.findInClass, Hierarchy.findInSuperclasses, hchain, Hierarchy.firstDeclaring,
      hmethod]
  have hclass : (verbose text).isInterface = false := by
    have hflags : AccessFlags.isInterface 0x0021 = false := by decide
    exact hflags
  have haccessible (d : Declaration) (hd : d.method.accessFlags = 0x0009) :
      (verboseCall text).hierarchy.isAccessible "Caller" d := by
    have hpublic : AccessFlags.isPublic 0x0009 = true := by decide
    simp [Hierarchy.isAccessible, hd, hpublic]
  rw [Hierarchy.resolveMethod_of_findInClass (s := ⟨"Verbose", "run", "()V"⟩) (get?_verbose text)
    hclass hplain hfound, Option.some_or]
  dsimp only
  rw [if_pos (haccessible _ rfl)]
  rfl

theorem currentReference_verbose : (verboseCall text).currentReference =
    .ok (verboseCaller, ⟨.method, "Verbose", "run", "()V"⟩) := by
  have hread : (do
      let index ← verboseCaller.readWord 1
      let member ← (verboseCaller.owner.pool.memberRef index).mapError .invalidIndex
      return (verboseCaller, member) : Except Fault (Frame × MemberRef)) =
        .ok (verboseCaller, ⟨.method, "Verbose", "run", "()V"⟩) := by
    decide +kernel
  exact hread

/-- The reference to the method, once it is resolved. -/
def verboseInvocation : Invocation :=
  ⟨.static, "Caller", ⟨"Verbose", "run", "()V"⟩, 0, ⟨⟨"Verbose", "run", "()V"⟩, 0x0009, false⟩⟩

variable {text}

theorem resolvePhase_verbose (hσ : σ.state = verboseCall text) :
    ∃ τ, (Exec.resolvePhase .static).apply σ = (.ok verboseInvocation, τ) ∧
      τ.state = verboseCall text := by
  rcases σ with ⟨s, queries, requests, events⟩
  obtain rfl : s = verboseCall text := hσ
  have hkind : (MemberKind.method == .interfaceMethod) = false := rfl
  have howner : verboseCaller.owner.name = "Caller" := rfl
  rw [Exec.resolvePhase, Exec.apply_state_bind, currentReference_verbose]
  dsimp only
  rw [if_neg (by decide), methodDescriptor_verbose]
  dsimp only
  rw [hkind, howner, resolveMethod_verbose]
  exact ⟨_, rfl, rfl⟩

theorem initializeClass_verbose (hσ : σ.state = verboseCall text)
    (hnegative : unitCount text < 0) :
    ((Exec.initializeClass ⟨false, false⟩ (.fixed false) "Verbose").apply σ).1 =
      .error (.state (.negativeArraySize (unitCount text))) := by
  have hnew : ¬σ.state.hasKlass "Verbose" := by
    rw [hσ]
    exact Bool.false_ne_true
  have hclass : σ.state.hierarchy.get? "Verbose" = some (verbose text) := hσ ▸ get?_verbose text
  have hlimit : σ.state.heapLimit = none := hσ ▸ rfl
  have hstrings : σ.state.strings.get? text = none := hσ ▸ rfl
  have htype : FieldType.parse "Ljava/lang/String;" = .ok (.reference "java/lang/String") := by
    decide +kernel
  refine Exec.initializeClass_of_createKlass hnew rfl rfl fun path events => ?_
  exact Exec.createKlass_of_text hnew hclass hlimit rfl htype rfl (literal_verbose text)
    (Exec.internString_of_negative hstrings hnegative)

theorem checkOperands_verbose (hσ : σ.state = verboseCall text) :
    Strategies.standard.check σ.state verboseInvocation = none := by
  have hstatic : AccessFlags.isStatic 0x0009 = true := by decide
  have hframe : σ.state.currentFrame = .ok verboseCaller := hσ ▸ rfl
  simp [Strategies.standard, checkOperands, verboseInvocation, methodDescriptor_verbose, hframe,
    ResolvedMethod.isStatic, hstatic, InvokeKind.hasReceiver]

/-- The text is never looked at before its characters are to be stored. -/
theorem verboseCall_faults (hnegative : unitCount text < 0) :
    ∃ τ, (step ⟨none, .ample, ⟨false, false⟩, .fixed false, .standard⟩).apply
      (.start (verboseCall text)) = (.error (.state (.negativeArraySize (unitCount text))), τ) := by
  obtain ⟨τ, hresolve, hτ⟩ := resolvePhase_verbose
    (σ := ⟨verboseCall text, [], [], [.instruction InvokeKind.static.opcode 0]⟩) rfl
  have hfault := Exec.invoke_static_fault hresolve rfl (checkOperands_verbose hτ)
    (initializeClass_verbose hτ hnegative) (by simp)
  have hstack : (Session.start (verboseCall text)).state.stack = [verboseCaller] := rfl
  have hopcode : verboseCaller.code[verboseCaller.pc]? = some InvokeKind.static.opcode := rfl
  rw [apply_step _ hstack hopcode, invoke]
  exact ⟨_, Exec.apply_of_fst hfault⟩

theorem verboseCall_noDangling : (verboseCall text).NoDangling := by
  refine (State.NoDangling.create _ none .ample).withStack fun f hf => ?_
  rw [List.mem_singleton.1 hf]
  exact ⟨by simp [verboseCaller], by simp [verboseCaller]⟩

/-- The class has a text of 2^31 characters, and the call of its method is an internal fault. -/
theorem step_verboseCall :
    let s := verboseCall (String.ofList (List.replicate (2 ^ 31) 'a'))
    s.hierarchy.ExtendsBootstrap ∧ s.NoDangling ∧ s.stack = [verboseCaller] ∧
    verboseCaller.code[verboseCaller.pc]? = some InvokeKind.static.opcode ∧
    ∃ τ, (step ⟨none, .ample, ⟨false, false⟩, .fixed false, .standard⟩).apply (.start s) =
      (.error (.state (.negativeArraySize (-2147483648))), τ) := by
  intro s
  -- for any count, as the characters are too many to be counted one by one
  have hlength (count : Nat) :
      (Text.Utf16.encode (String.ofList (List.replicate count 'a'))).length = count := by
    simp [Text.Utf16.encode, List.length_flatMap, Text.Utf16.encodeChar]
  have hcount : unitCount (String.ofList (List.replicate (2 ^ 31) 'a')) = -2147483648 := by
    rw [unitCount, hlength]
    decide
  have hnegative : unitCount (String.ofList (List.replicate (2 ^ 31) 'a')) < 0 := by
    rw [hcount]
    decide
  refine ⟨verboseCall_extendsBootstrap _, verboseCall_noDangling, rfl, rfl, ?_⟩
  rw [← hcount]
  exact verboseCall_faults hnegative

end Engine

end SymbolicBytecode

import Mathlib
import SymbolicBytecode.Proofs.KindAgreement

/-!
# Calls and their returns

A call takes its arguments off the operand stack of the caller and finds them, in the same order, in
the local variables of the method. The caller remembers the instruction behind the call, and that is
where it goes on when the method returns, with the result as its latest operand. What it had below
the arguments, and all frames below its own, it finds as it has left them.
-/
namespace SymbolicBytecode

namespace Exec

variable {strategies : Strategies} {i : Invocation} {σ τ : Session} {f : Frame} {rest : List Frame}

/-- The frame of the called method has the arguments, and that of the caller no longer has them. -/
theorem Commits.pushes {m : Implementation} {method : Signature}
    (hcommits : Commits strategies i σ (some m) (.invoked method) τ)
    (hstack : σ.state.stack = f :: rest) :
    method = m.signature ∧ ∃ arity c body callee, i.arity = .ok arity ∧
      σ.state.hierarchy.get? method.className = some c ∧
      c.method? method.name method.descriptor = some body ∧
      callee.Starts method c body (f.operands.take arity).reverse ∧
      τ.state.stack = callee :: { f with
        operands := f.operands.drop arity
        returnPc := f.pc + strategies.returnOffset i } :: rest := by
  cases hcommits with
  | @invoked _ arity args ρ π _ _ _ harity hpop hpush =>
    refine ⟨rfl, arity, ?_⟩
    rcases popOperands_cases arity σ with ⟨e, herror⟩ | ⟨g, below, hg, hok⟩
    · rw [herror] at hpop
      cases hpop
    cases hg.symm.trans hstack
    cases hok.symm.trans hpop
    rcases pushFrame_cases m.signature false (strategies.returnOffset i) _ _ with
      ⟨e, herror⟩ | ⟨c, body, callee, hget, hbody, hcreate, hpushed⟩
    · rw [herror] at hpush
      cases hpush
    rw [if_neg Bool.false_ne_true, apply_pushPrepared_resuming] at hpushed
    cases hpushed.symm.trans hpush
    exact ⟨c, body, callee, harity, hget, hbody, Frame.create_starts hcreate, rfl⟩

/-- A method returns to where its caller said it would resume. -/
theorem completeFrame_returns {callee caller : Frame}
    (hstack : σ.state.stack = callee :: caller :: rest) (hpc : caller.returnPc < caller.code.length)
    (v : Option Value) :
    ∃ τ, (completeFrame v).apply σ = (.ok (), τ) ∧ τ.state.stack = { caller with
      pc := caller.returnPc
      operands := v.toList ++ caller.operands } :: rest := by
  rw [apply_completeFrame v hstack, Frame.setPc, if_pos hpc]
  refine ⟨_, rfl, ?_⟩
  cases v <;> rfl

end Exec

namespace Engine

variable {engine : Engine} {σ τ : Session} {method : Signature}

/-- **Call and return.** A call moves its arguments, in the order in which they were pushed, to the
local variables of the method, which starts with an empty operand stack. When the method returns,
the caller is behind the call with the result in place of the arguments, and the other frames are
what they were. -/
theorem step_invoked_returns (hstrategies : engine.strategies = .standard)
    (hstep : engine.step.apply σ = (.ok (.invoked method), τ)) :
    ∃ f rest kind i arity, σ.state.stack = f :: rest ∧ f.code[f.pc]? = some kind.opcode ∧
      σ.state.Resolves kind i ∧ i.arity = .ok arity ∧ arity ≤ f.operands.length ∧
      (∃ d, method.methodDescriptor = .ok d ∧
        arity = d.params.length + if kind.hasReceiver then 1 else 0) ∧
      (∃ c body callee, σ.state.hierarchy.get? method.className = some c ∧
        c.method? method.name method.descriptor = some body ∧
        callee.Starts method c body (f.operands.take arity).reverse ∧
        τ.state.stack = callee :: { f with
          operands := f.operands.drop arity
          returnPc := f.pc + if kind = .interface then 5 else 3 } :: rest) ∧
      (f.pc + (if kind = .interface then 5 else 3) < f.code.length → ∀ v : Option Value, ∃ ω,
        (Exec.completeFrame v).apply τ = (.ok (), ω) ∧
        ω.state.stack = { f with
          pc := f.pc + if kind = .interface then 5 else 3
          returnPc := f.pc + if kind = .interface then 5 else 3
          operands := v.toList ++ f.operands.drop arity } :: rest) := by
  obtain ⟨f, rest, kind, hstack, hopcode, hinvoke⟩ := step_ok hstep
  rw [invoke, hstrategies] at hinvoke
  cases Exec.invoke_ok hinvoke with | invoked hphases =>
  obtain ⟨i, ρ, π, ω, found, hresolve, hchecked, hprepare, hselect, hsame, hcommits⟩ :=
    Exec.invocationPhases_ok hphases
  obtain ⟨hstate, -, hresolves, -⟩ := Exec.resolvePhase_ok hresolve
  have hthread := Exec.preparePhase_ok hprepare
  have hω : ω.state.hierarchy = σ.state.hierarchy ∧ ω.state.stack = f :: rest := by
    rw [hsame, hthread.hierarchy, hthread.stack, hstate]
    exact ⟨rfl, hstack⟩
  -- the usual strategies execute what was selected
  replace hcommits : Exec.Commits .standard i ω found (.invoked method) τ := hcommits
  obtain ⟨hplain, m, rfl⟩ := hcommits.found
  have himplements := Exec.selectPhase_implements hplain hselect
  obtain ⟨rfl, arity, c, body, callee, harity, hget, hbody, hstarts, hframes⟩ :=
    hcommits.pushes hω.2
  have hlength :
      Strategies.standard.returnOffset i = if kind = .interface then 5 else 3 := by
    rw [← hresolves.kind_eq]
    rfl
  rw [hlength] at hframes
  obtain ⟨d, hd, hcount⟩ := except_bind_ok_iff.1 harity
  obtain ⟨_, harity', hoperands⟩ := (checkOperands_eq_none hstack hchecked).arity
  cases harity.symm.trans harity'
  refine ⟨f, rest, kind, i, arity, hstack, hopcode, hresolves, harity, hoperands, ⟨d, ?_, ?_⟩,
    ⟨c, body, callee, hω.1 ▸ hget, hbody, hstarts, hframes⟩, fun hpc v => ?_⟩
  · rw [Signature.methodDescriptor, himplements.descriptor_eq]
    exact hd
  · rw [← hresolves.kind_eq]
    exact (Except.ok.inj hcount).symm
  · exact Exec.completeFrame_returns hframes hpc v

/-- A class with a method that takes a wide argument. -/
def ledger : ClassFile :=
  ({ ClassOutline.publicClass "p/L" with
    methods := [⟨0x0001, "add", "(JI)I", some ⟨1, 4, [0xac], []⟩⟩] } : ClassOutline).build

def ledgerCaller : ClassFile :=
  ({ ClassOutline.publicClass "p/C" with
    constants := [.methodRef ⟨"p/L", "add", "(JI)I"⟩] } : ClassOutline).build

/-- The caller is about to call the method, with an operand of its own below the arguments. -/
def ledgerFrame : Frame :=
  ⟨⟨"p/C", "run", "()V"⟩, ledgerCaller, [0xb6, 0, 6, 0xb1], [], 0, 0, [],
    [.int 2, .long 3, .reference (.concrete 0), .int 5]⟩

def ledgerCall : State :=
  { State.create ([Bootstrap.object.build, ledger, ledgerCaller].foldl .add .empty) none .ample with
    stack := [ledgerFrame]
    heap := Heap.empty.add (.object "p/L" ∅) }

/-- The value of the call is all that the caller has in place of the arguments. -/
theorem step_ledgerCall : ∃ τ ω, echoEngine.step.apply (.start ledgerCall) =
      (.ok (.invoked ⟨"p/L", "add", "(JI)I"⟩), τ) ∧
    (Exec.completeFrame (some (.int 7))).apply τ = (.ok (), ω) ∧
    ω.state.stack =
      [{ ledgerFrame with pc := 3, returnPc := 3, operands := [.int 7, .int 5] }] := by
  have hstep : echoEngine.step.apply (.start ledgerCall) =
      (.ok (.invoked ⟨"p/L", "add", "(JI)I"⟩), (echoEngine.step.apply (.start ledgerCall)).2) :=
    Prod.ext (by decide +kernel) rfl
  obtain ⟨f, rest, kind, i, arity, hstack, hopcode, -, -, -, ⟨d, hd, harity⟩, -, hreturns⟩ :=
    step_invoked_returns rfl hstep
  obtain ⟨rfl, rfl⟩ := List.cons.inj hstack
  obtain rfl : kind = .virtual := by
    revert hopcode
    cases kind <;> decide
  have hparse : Signature.methodDescriptor ⟨"p/L", "add", "(JI)I"⟩ =
      .ok ⟨[.long, .int], some .int⟩ := by decide +kernel
  cases hparse.symm.trans hd
  subst harity
  obtain ⟨ω, hcomplete, hω⟩ := hreturns (by decide) (some (.int 7))
  exact ⟨_, ω, hstep, hcomplete, hω⟩

end Engine

end SymbolicBytecode

import Mathlib
import SymbolicBytecode.Proofs.Deferral

/-!
# Calls of method handles

A call of a signature-polymorphic method is not carried out. Its instruction is changed, so that the
next time it goes to the method handle. That is all that happens to a virtual or a special call. A
static call of such a method is let through as well, whether the method is static or not, and it
initializes the class first as any static call does.
-/
namespace SymbolicBytecode

namespace State

variable {s : State} {kind : InvokeKind} {i : Invocation} {f : Frame} {rest : List Frame}

theorem Resolves.ne_interface (h : s.Resolves kind i) (hpolymorphic : i.method.polymorphic) :
    kind ≠ .interface := by
  rintro rfl
  obtain ⟨g, member, -, haccepts, -, -, hmethod⟩ := h
  have hkind := Hierarchy.resolveMethod_polymorphic hmethod hpolymorphic
  cases hmember : member.kind <;> simp_all [InvokeKind.accepts]

theorem Resolves.pc_eq (h : s.Resolves kind i) (hstack : s.stack = f :: rest) : i.pc = f.pc := by
  obtain ⟨g, member, hreference, -, -, hpc, -⟩ := h
  obtain ⟨⟨below, hg⟩, -⟩ := currentReference_ok hreference
  obtain ⟨rfl, -⟩ := List.cons.inj (hg.symm.trans hstack)
  exact hpc

end State

namespace Exec

variable {strategies : Strategies} {i : Invocation} {σ τ : Session} {f : Frame} {rest : List Frame}

/-- A call leaves the state as it is if and only if there is no class to initialize for it. -/
theorem preparePhase_unchanged_iff {policy : InitializationPolicy} {oracle : Oracle}
    (h : (preparePhase policy oracle i).apply σ = (.ok (), τ)) :
    τ.state = σ.state ↔ i.kind ≠ .static ∨ σ.state.hasKlass i.method.signature.className := by
  constructor
  · intro hsame
    rcases preparePhase_cases h with ⟨hkind, -⟩ | ⟨-, outcome, hready, hrun⟩
    · exact .inl hkind
    have hends : ¬Failed (.ok outcome) := by rcases hready with rfl | rfl <;> simp [Failed]
    obtain ⟨names, -, -, hadded, hname⟩ := initializeClass_adds hrun hends
    exact .inr (hsame ▸ (hadded _).2 hname)
  · intro hready
    have hunchanged := apply_preparePhase_ready policy oracle hready.neg_resolve_left
    cases hunchanged.symm.trans h
    rfl

theorem Commits.patches {found : Option Implementation} {opcode : UInt8}
    (hcommits : Commits strategies i σ found (.patched opcode) τ)
    (hstack : σ.state.stack = f :: rest) :
    i.method.polymorphic ∧ opcode = invokeHandleOpcode ∧
      τ.state = { σ.state with
        stack := { f with code := f.code.set i.pc opcode } :: rest } := by
  cases hcommits with
  | patched hpolymorphic hpatch =>
    refine ⟨hpolymorphic, rfl, ?_⟩
    rcases updateFrame_cases (fun f => do return ((), ← f.patch i.pc invokeHandleOpcode)) σ with
      ⟨e, herror⟩ | ⟨g, below, r, hg, hr, hok⟩
    · rw [herror] at hpatch
      cases hpatch
    cases hg.symm.trans hstack
    cases hok.symm.trans hpatch
    obtain ⟨f', hf', hr⟩ := except_bind_ok_iff.1 hr
    cases hr
    rw [Frame.patch_ok hf']

end Exec

namespace Engine

variable {engine : Engine} {σ τ : Session} {opcode : UInt8}

/-- **What happens when an instruction is changed.** The call was not an interface call, and in the
stack only its opcode is different. Nothing else is, unless the call was a static one and the class
of the method had no static entry. In that case the class has been initialized first. -/
theorem step_patched (hstep : engine.step.apply σ = (.ok (.patched opcode), τ)) :
    ∃ f rest kind i, σ.state.stack = f :: rest ∧ f.code[f.pc]? = some kind.opcode ∧
      kind ≠ .interface ∧ σ.state.Resolves kind i ∧ i.method.polymorphic ∧
      opcode = invokeHandleOpcode ∧
      τ.state.stack = { f with code := f.code.set f.pc opcode } :: rest ∧
      (τ.state = { σ.state with stack := τ.state.stack } ↔
        kind ≠ .static ∨ σ.state.hasKlass i.method.signature.className) ∧
      (kind = .static → ∃ ρ π outcome, ρ.state = σ.state ∧ ρ.queries = σ.queries ∧
        (Exec.initializeClass engine.policy engine.oracle i.method.signature.className).apply ρ =
          (.ok outcome, π) ∧ (outcome = .already ∨ outcome = .created 0) ∧
        τ.state = { π.state with stack := τ.state.stack }) := by
  obtain ⟨f, rest, kind, hstack, hopcode, hinvoke⟩ := step_ok hstep
  cases Exec.invoke_ok hinvoke with | patched hphases =>
  obtain ⟨i, ρ, π, ω, found, hresolve, -, hprepare, -, hsame, hcommits⟩ :=
    Exec.invocationPhases_ok hphases
  obtain ⟨hstate, hqueries, hresolves, -⟩ := Exec.resolvePhase_ok hresolve
  have hthread := Exec.preparePhase_ok hprepare
  have hω : ω.state.stack = f :: rest := by rw [hsame, hthread.stack, hstate, ← hstack]
  obtain ⟨hpolymorphic, -, hτ⟩ := hcommits.patches hω
  rw [hresolves.pc_eq hstack, hsame] at hτ
  have hframes : τ.state.stack = { f with code := f.code.set f.pc invokeHandleOpcode } :: rest := by
    rw [hτ]
  have hrest : τ.state = { π.state with stack := τ.state.stack } := by rw [hτ]
  refine ⟨f, rest, kind, i, hstack, hopcode, hresolves.ne_interface hpolymorphic, hresolves,
    hpolymorphic, rfl, hframes, ?_, fun hstatic => ?_⟩
  · rw [← hresolves.kind_eq, ← hstate, ← Exec.preparePhase_unchanged_iff hprepare]
    constructor
    · intro hnothing
      -- the preparation leaves the stack alone, so the states can only differ elsewhere
      calc π.state = { τ.state with stack := π.state.stack } := by rw [hrest]
        _ = { τ.state with stack := ρ.state.stack } := by rw [hthread.stack]
        _ = ρ.state := by rw [hnothing]
    · intro hunchanged
      rw [hunchanged] at hrest
      exact hrest
  · rcases Exec.preparePhase_cases hprepare with ⟨hkind, -⟩ | ⟨-, outcome, hready, hrun⟩
    · exact absurd (hresolves.kind_eq.trans hstatic) hkind
    · exact ⟨ρ, π, outcome, hstate, hqueries, hrun, hready, hrest⟩

def handleCaller : ClassFile :=
  ({ ClassOutline.publicClass "p/C" with
    constants := [.methodRef ⟨methodHandleClass, "invokeExact", "()V"⟩] } : ClassOutline).build

def handleFrame (kind : InvokeKind) : Frame :=
  ⟨⟨"p/C", "run", "()V"⟩, handleCaller, [kind.opcode, 0, 6, 0xb1], [], 0, 0, [],
    [.reference (.concrete 0)]⟩

/-- A method handle is to be called. -/
def handleCall (kind : InvokeKind) : State :=
  { State.create ([Bootstrap.object.build, Bootstrap.methodHandle.build, handleCaller].foldl .add
      .empty) none .ample with
    stack := [handleFrame kind]
    heap := Heap.empty.add (.object methodHandleClass ∅) }

def handleEngine : Engine := ⟨none, .ample, ⟨false, false⟩, .fixed true, .standard⟩

/-- A special call goes to the method handle the next time. -/
theorem step_handleCall : ∃ τ, handleEngine.step.apply (.start (handleCall .special)) =
      (.ok (.patched invokeHandleOpcode), τ) ∧
    τ.state = { handleCall .special with
      stack := [{ handleFrame .special with code := [invokeHandleOpcode, 0, 6, 0xb1] }] } := by
  have hstep : handleEngine.step.apply (.start (handleCall .special)) =
      (.ok (.patched invokeHandleOpcode),
        (handleEngine.step.apply (.start (handleCall .special))).2) :=
    Prod.ext (by decide +kernel) rfl
  obtain ⟨f, rest, kind, i, hstack, hopcode, -, -, -, -, hframes, hnothing, -⟩ := step_patched hstep
  obtain ⟨rfl, rfl⟩ := List.cons.inj hstack
  obtain rfl : kind = .special := by
    revert hopcode
    cases kind <;> decide
  have hsame := hnothing.2 (.inl (by decide))
  rw [hframes] at hsame
  exact ⟨_, hstep, hsame⟩

/-- A static call is changed too, and more than that has happened then. -/
theorem step_handleCall_static : ∃ τ,
    (handleFrame .static).code[(handleFrame .static).pc]? = some InvokeKind.static.opcode ∧
    handleEngine.step.apply (.start (handleCall .static)) =
      (.ok (.patched invokeHandleOpcode), τ) ∧
    ¬(handleCall .static).hasKlass methodHandleClass ∧ τ.state.hasKlass methodHandleClass ∧
    τ.state.path ≠ (handleCall .static).path := by
  have hstep : handleEngine.step.apply (.start (handleCall .static)) =
      (.ok (.patched invokeHandleOpcode),
        (handleEngine.step.apply (.start (handleCall .static))).2) :=
    Prod.ext (by decide +kernel) rfl
  exact ⟨_, rfl, hstep, by decide +kernel, by decide +kernel, by decide +kernel⟩

end Engine

end SymbolicBytecode

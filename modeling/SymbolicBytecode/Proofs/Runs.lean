import Mathlib
import SymbolicBytecode.Proofs.Phases

/-!
# Runs

A run is a sequence of operations on a session, each of which may fail. `Operation` has all
operations that change a session, and `Operation.Move` says what each of them is made of. Up to the
exceptions that are made directly, these are steps of `Session.Change`. So what every step keeps is
kept by every run.
-/
namespace SymbolicBytecode

open Relation (ReflTransGen)
open Session (ValueChange HeapChange InitializationChange EngineChange Change)

namespace Session

variable {policy : InitializationPolicy} {strategies : Strategies} {lax : Bool} {σ τ : Session}

theorem ThrowChange.changes (h : ThrowChange σ τ) : ReflTransGen (Change lax) σ τ :=
  ReflTransGen.mono (fun _ _ => .thread) _ _ h.steps

theorem InitializationChange.changes (h : InitializationChange policy σ τ)
    (hlax : policy.removeKlasses → lax) : ReflTransGen (Change lax) σ τ := by
  cases h with
  | entry h => exact .single h.change
  | throw h => exact h.changes
  | @start name k f hget =>
    have hhas : σ.state.hasKlass name := State.hasKlass_iff.2 ⟨k, hget⟩
    exact .head (.update σ _ hhas) (.head (.thread (.frames _ _ _))
      (.single (.thread (.report _ (by simp)))))
  | settle hget => exact .single (.update σ _ (State.hasKlass_iff.2 ⟨_, hget⟩))
  | withdraw hremoves => exact .single (.remove σ _ (hlax hremoves))

theorem CallChange.steps (h : CallChange strategies σ τ) : ReflTransGen ThreadChange σ τ := by
  cases h with
  | throw h => exact h.steps
  | patch pc opcode => exact Exec.updateFrame_madeOf _ σ
  | call count signature offset =>
    exact Exec.MadeOf.bind (Exec.updateFrame_madeOf _)
      (fun args => Exec.pushFrame_madeOf signature false offset args) σ

theorem EngineChange.changes (h : EngineChange policy strategies σ τ)
    (hlax : policy.removeKlasses → lax) : ReflTransGen (Change lax) σ τ := by
  cases h with
  | initialization h => exact h.changes hlax
  | call h => exact ReflTransGen.mono (fun _ _ => .thread) _ _ h.steps

end Session

/-- The operations that change a session. -/
inductive Operation where
  | createKlass (className : String)
  | removeKlass (className : String)
  | setKlassStatus (className : String) (status : KlassStatus)
  | assumeClassInitialized (className : String)
  | assumeClassNotInitialized (className : String)
  | setStatic (className field : String) (v : Value)
  | createInstance (className : String)
  | createThrowable (className : String)
  | createArray (component : FieldType) (length : Int32)
  | internString (text : String)
  | setField (ref : Reference) (field : String) (v : Value)
  | setElement (ref : Reference) (index : Int32) (v : Value)
  | newSymbolicRef (origin staticType : String)
  | newSymbol (origin : String) (type : FieldType)
  | assumeNull (ref : SymbolicRef)
  | assumeAliases (ref : SymbolicRef) (position : Nat)
  | assumeExpands (ref : SymbolicRef) (className : String)
  /-- Change the current frame in any way. -/
  | updateFrame (f : Frame → Except Fault (Unit × Frame))
  | popOperands (count : Nat)
  | pushPrepared (frame : Frame) (returnOffset : Nat)
  | pushFrame (signature : Signature) (isRoot : Bool) (returnOffset : Nat) (args : List Value)
  | popFrame
  | completeFrame (result : Option Value)
  | throwFrom (ref : Reference) (search : HandlerSearch)
  | throwObject (ref : Reference)
  | throwVerifyError
  | createAndThrow (t : Throwable)
  | initializeClass (className : String)
  | ensureKlass (className : String)
  | invoke (kind : InvokeKind)
  | step

namespace Operation

/-- The session after an operation, whether it has failed or not. -/
def after (engine : Engine) (σ : Session) : Operation → Session
  | createKlass className => ((Exec.createKlass className).apply σ).2
  | removeKlass className => ((Exec.removeKlass className).apply σ).2
  | setKlassStatus className status => ((Exec.setKlassStatus className status).apply σ).2
  | assumeClassInitialized className => ((Exec.assumeClassInitialized className).apply σ).2
  | assumeClassNotInitialized className => ((Exec.assumeClassNotInitialized className).apply σ).2
  | setStatic className field v => ((Exec.setStatic className field v).apply σ).2
  | createInstance className => ((Exec.createInstance className).apply σ).2
  | createThrowable className => ((Exec.createThrowable className).apply σ).2
  | createArray component length => ((Exec.createArray component length).apply σ).2
  | internString text => ((Exec.internString text).apply σ).2
  | setField ref field v => ((Exec.setField ref field v).apply σ).2
  | setElement ref index v => ((Exec.setElement ref index v).apply σ).2
  | newSymbolicRef origin staticType => ((Exec.newSymbolicRef origin staticType).apply σ).2
  | newSymbol origin type => ((Exec.newSymbol origin type).apply σ).2
  | assumeNull ref => ((Exec.assumeNull ref).apply σ).2
  | assumeAliases ref position => ((Exec.assumeAliases ref position).apply σ).2
  | assumeExpands ref className => ((Exec.assumeExpands ref className).apply σ).2
  | updateFrame f => ((Exec.updateFrame f).apply σ).2
  | popOperands count => ((Exec.popOperands count).apply σ).2
  | pushPrepared frame returnOffset => ((Exec.pushPrepared frame returnOffset).apply σ).2
  | pushFrame signature isRoot returnOffset args =>
    ((Exec.pushFrame signature isRoot returnOffset args).apply σ).2
  | popFrame => (Exec.popFrame.apply σ).2
  | completeFrame result => ((Exec.completeFrame result).apply σ).2
  | throwFrom ref search => ((Exec.throwFrom ref search).apply σ).2
  | throwObject ref => ((Exec.throwObject ref).apply σ).2
  | throwVerifyError => (Exec.throwVerifyError.apply σ).2
  | createAndThrow t => ((Exec.createAndThrow t).apply σ).2
  | initializeClass className =>
    ((Exec.initializeClass engine.policy engine.oracle className).apply σ).2
  | ensureKlass className => ((engine.ensureKlass className).apply σ).2
  | invoke kind => ((engine.invoke kind).apply σ).2
  | step => (engine.step.apply σ).2

/-- The operations that take an entry back, or assume that a class is not initialized and leave
its entry to the caller. -/
def isLax : Operation → Bool
  | removeKlass _ | assumeClassNotInitialized _ => true
  | _ => false

/-- The operations that are one step in their own right. -/
def isElementary : Operation → Bool
  | createKlass _ | removeKlass _ | setKlassStatus _ _ | assumeClassNotInitialized _
  | setStatic _ _ _ | updateFrame _ | popOperands _ | pushPrepared _ _ | pushFrame _ _ _ _
  | popFrame | completeFrame _ => true
  | _ => false

/-- The value that an operation stores in an object. -/
def Gives : Operation → Value → Prop
  | setField _ _ v, w => w = v
  | setElement _ _ v, w => w = v
  | _, _ => False

/-- What an operation is made of. -/
inductive Move (engine : Engine) (op : Operation) : Session → Session → Prop
  | elementary (σ : Session) (hop : op.isElementary) : Move engine op σ (op.after engine σ)
  /-- An exception is made directly, and takes no room. -/
  | exception (σ : Session) {className : String} {o : HeapObject}
      (hop : op = createThrowable className) (hmakes : σ.state.hierarchy.Makes className o) :
      Move engine op σ (σ.adding o)
  | heap {σ τ : Session} (h : HeapChange op.Gives σ τ) : Move engine op σ τ
  | value {σ τ : Session} (h : ValueChange σ τ) : Move engine op σ τ
  | engine {σ τ : Session} (h : EngineChange engine.policy engine.strategies σ τ) :
      Move engine op σ τ

variable {engine : Engine} {op : Operation} {lax : Bool} {σ τ : Session}

section Moves

variable {ε α : Type} {x : Exec ε α}

theorem moves_of_heap (op : Operation) (h : Exec.MadeOf (HeapChange op.Gives) x) :
    Exec.MadeOf (op.Move engine) x := h.mono fun _ _ => .heap

theorem moves_of_value (h : Exec.MadeOf ValueChange x) : Exec.MadeOf (op.Move engine) x :=
  h.mono fun _ _ => .value

theorem moves_of_engine (h : Exec.MadeOf (EngineChange engine.policy engine.strategies) x) :
    Exec.MadeOf (op.Move engine) x := h.mono fun _ _ => .engine

theorem moves_of_initialization (h : Exec.MadeOf (InitializationChange engine.policy) x) :
    Exec.MadeOf (op.Move engine) x := moves_of_engine h.initialization

end Moves

theorem after_moves (engine : Engine) (op : Operation) (σ : Session) :
    ReflTransGen (op.Move engine) σ (op.after engine σ) := by
  cases op with
  | createThrowable className =>
    rw [after]
    cases hfields : σ.state.hierarchy.instanceFields className with
    | error e =>
      rw [Exec.createThrowable, Exec.apply_bind, Exec.apply_blankInstance, hfields]
    | ok fields =>
      rw [Exec.apply_createThrowable hfields]
      exact .single (.exception σ rfl ⟨fields, hfields, rfl⟩)
  | assumeClassInitialized className =>
    exact moves_of_initialization (Exec.assumeClassInitialized_madeOf _).entry σ
  | createInstance className => exact moves_of_heap _ (Exec.createInstance_madeOf _) σ
  | createArray component length => exact moves_of_heap _ (Exec.createArray_madeOf _ _) σ
  | internString text => exact moves_of_value (Exec.internString_madeOf _) σ
  | setField ref field v =>
    exact moves_of_heap (setField ref field v) (Exec.setField_madeOf _ _ _) σ
  | setElement ref index v =>
    exact moves_of_heap (setElement ref index v) (Exec.setElement_madeOf _ _ _) σ
  | newSymbolicRef origin staticType =>
    exact moves_of_value (Exec.newSymbolicRef_madeOf _ _) σ
  | newSymbol origin type => exact moves_of_value (Exec.newSymbol_madeOf _ _) σ
  | assumeNull ref => exact moves_of_heap _ (Exec.assumeNull_madeOf _) σ
  | assumeAliases ref position => exact moves_of_heap _ (Exec.assumeAliases_madeOf _ _) σ
  | assumeExpands ref className => exact moves_of_heap _ (Exec.assumeExpands_madeOf _ _) σ
  | throwFrom ref search =>
    exact .single (.engine (.initialization (.throw (.unwind σ ref search))))
  | throwObject ref => exact moves_of_initialization (Exec.throwObject_madeOf _).throws σ
  | throwVerifyError => exact moves_of_initialization Exec.throwVerifyError_madeOf.throws σ
  | createAndThrow t => exact moves_of_initialization (Exec.createAndThrow_madeOf _).throws σ
  | initializeClass className =>
    exact moves_of_initialization (Exec.initializeClass_madeOf _ _ _) σ
  | ensureKlass className => exact moves_of_initialization (Exec.ensureKlass_madeOf _ _ _) σ
  | invoke kind => exact moves_of_engine (Exec.invoke_madeOf _ _ _ _) σ
  | step => exact moves_of_engine engine.step_madeOf σ
  | _ => exact .single (.elementary σ rfl)

theorem Move.changes (h : op.Move engine σ τ) (hpolicy : engine.policy.removeKlasses → lax)
    (hop : op.isLax → lax) :
    ReflTransGen (Change lax) σ τ ∨
      ∃ className o, op = createThrowable className ∧ τ = σ.adding o := by
  cases h with
  | exception hthrowable => exact .inr ⟨_, _, hthrowable, rfl⟩
  | heap h => exact .inl (.single h.change)
  | value h => exact .inl (.single (.value h))
  | engine h => exact .inl (h.changes hpolicy)
  | elementary helementary =>
    left
    cases op with
    | createKlass className => exact Exec.createKlass_madeOf _ σ
    | removeKlass className => exact Exec.removeKlass_madeOf _ (hop rfl) σ
    | setKlassStatus className status => exact Exec.setKlassStatus_madeOf _ _ σ
    | assumeClassNotInitialized className =>
      exact Exec.assumeClassNotInitialized_madeOf _ (hop rfl) σ
    | setStatic className field v => exact Exec.setStatic_madeOf _ _ _ σ
    | updateFrame f => exact (Exec.updateFrame_madeOf _).thread σ
    | popOperands count => exact (Exec.updateFrame_madeOf _).thread σ
    | pushPrepared frame returnOffset => exact (Exec.pushPrepared_madeOf _ _).thread σ
    | pushFrame signature isRoot returnOffset args =>
      exact (Exec.pushFrame_madeOf _ _ _ _).thread σ
    | popFrame => exact Exec.popFrame_madeOf.thread σ
    | completeFrame result => exact Exec.completeFrame_madeOf _ σ
    | _ => cases helementary

/-- An operation is made of steps, unless it makes an exception directly. -/
theorem after_steps (hpolicy : engine.policy.removeKlasses → lax) (hop : op.isLax → lax)
    (σ : Session) :
    ReflTransGen (Change lax) σ (op.after engine σ) ∨
      ∃ className o, op = createThrowable className ∧ σ.state.hierarchy.Makes className o ∧
        op.after engine σ = σ.adding o := by
  by_cases hother : ∀ className, op ≠ createThrowable className
  · refine .inl ((after_moves engine op σ).lift' id fun _ _ h => ?_)
    refine (h.changes hpolicy hop).resolve_right ?_
    rintro ⟨className, o, hthrowable, -⟩
    exact hother className hthrowable
  · simp only [ne_eq, not_forall, not_not] at hother
    obtain ⟨className, rfl⟩ := hother
    rw [after]
    cases hfields : σ.state.hierarchy.instanceFields className with
    | error e =>
      rw [Exec.createThrowable, Exec.apply_bind, Exec.apply_blankInstance, hfields]
      exact .inl .refl
    | ok fields =>
      rw [Exec.apply_createThrowable hfields]
      exact .inr ⟨className, _, rfl, ⟨fields, hfields, rfl⟩, rfl⟩

end Operation

/-- The session after some operations, each on behalf of an engine. -/
def Session.run (σ : Session) : List (Engine × Operation) → Session
  | [] => σ
  | (engine, op) :: rest => (op.after engine σ).run rest

theorem Session.run_append (σ : Session) (ops ops' : List (Engine × Operation)) :
    σ.run (ops ++ ops') = (σ.run ops).run ops' := by
  induction ops generalizing σ with
  | nil => rfl
  | cons entry rest ih => exact ih _

/-- What every step and every new object keep is kept by a run. -/
theorem Session.run_preserves (inv : Session → Prop) {lax : Bool} {σ : Session}
    {ops : List (Engine × Operation)}
    (hchange : ∀ σ τ, Change lax σ τ → inv σ → inv τ) (hadd : ∀ σ o, inv σ → inv (σ.adding o))
    (hops : ∀ entry ∈ ops, (entry.1.policy.removeKlasses → lax) ∧ (entry.2.isLax → lax))
    (hσ : inv σ) : inv (σ.run ops) := by
  induction ops generalizing σ with
  | nil => exact hσ
  | cons entry rest ih =>
    obtain ⟨engine, op⟩ := entry
    obtain ⟨⟨hpolicy, hop⟩, hrest⟩ := List.forall_mem_cons.1 hops
    refine ih hrest ?_
    rcases Operation.after_steps hpolicy hop σ with hsteps | ⟨className, o, -, -, hafter⟩
    · exact inv_of_steps inv hchange hsteps hσ
    · rw [hafter]
      exact hadd σ o hσ

end SymbolicBytecode

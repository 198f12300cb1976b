import Mathlib
import SymbolicBytecode.Execution.Initialization
import SymbolicBytecode.Proofs.Literals
import SymbolicBytecode.Proofs.References
import SymbolicBytecode.Proofs.StaticStore
import SymbolicBytecode.Proofs.Unwinding

/-!
# What operations are made of

Every operation changes a session step by step, and there are few kinds of steps. An invariant that
each of them keeps is therefore kept by all operations, however they end. `Session.ThreadChange` has
the steps of throwing and of pushing and popping frames, `Session.Change` all of them. What belongs
together is one step: a class that is assumed not to be initialized gets its static entry at once,
if it can have one.

Some invariants depend on which frames, values and entries there are. For these there are relations
that say more about fewer operations: `Session.ThrowChange` is about those that throw,
`Session.HeapChange` about those that change objects and resolve references,
`Session.EntryChange` about those that give classes their static entries, and `Session.StoreChange`
about those that only change or withdraw entries.
-/
namespace SymbolicBytecode

open Relation (ReflTransGen)

/-- The event reports neither a new exception nor a new frame. -/
def Event.IsRemark (e : Event) : Prop := (∀ t, e ≠ .throwing t) ∧ ∀ method, e ≠ .framePushed method

namespace Session

/-- The session with one more assumption. -/
def assuming (σ : Session) (c : Clause) : Session :=
  { σ with state := { σ.state with path := σ.state.path.push c } }

inductive ThreadChange : Session → Session → Prop
  | frames (σ : Session) (stack : List Frame) (uncaught : Option Reference) :
      ThreadChange σ { σ with state := { σ.state with stack, uncaught } }
  | report (σ : Session) {e : Event} (hquiet : ∀ t, e ≠ .throwing t) :
      ThreadChange σ { σ with events := e :: σ.events }
  /-- An exception of the machine is reported and made. -/
  | raise (σ : Session) {t : Throwable} {o : HeapObject}
      (hmakes : σ.state.hierarchy.Makes t.className o) :
      ThreadChange σ { σ.adding o with events := .throwing t :: σ.events }
  | raiseFails (σ : Session) {t : Throwable} {e : LinkError}
      (hfields : σ.state.hierarchy.instanceFields t.className = .error e) :
      ThreadChange σ { σ with events := .throwing t :: σ.events }

/-- What throwing is made of: an exception is made, and an object leaves frames. -/
inductive ThrowChange : Session → Session → Prop
  | report (σ : Session) {e : Event} (hremark : e.IsRemark) :
      ThrowChange σ { σ with events := e :: σ.events }
  | raise (σ : Session) (t : Throwable) : ThrowChange σ ((Exec.raise t).apply σ).2
  | unwind (σ : Session) (ref : Reference) (search : HandlerSearch) :
      ThrowChange σ ((Exec.throwFrom ref search).apply σ).2

/-- What making and changing objects and resolving references is made of. Of the values that are
stored, only those `given` need not be there before. -/
inductive HeapChange (given : Value → Prop) : Session → Session → Prop
  | allocate (σ : Session) {o : HeapObject} (hplain : o.IsPlain) (hroom : ¬σ.state.isFull) :
      HeapChange given σ (σ.adding o)
  | store (σ : Session) {p : Nat} {o o' : HeapObject} (hget : σ.state.heap.get? p = some o)
      (hclass : o'.className = o.className) (hvalues : ∀ v ∈ o'.values, v ∈ o.values ∨ given v) :
      HeapChange given σ { σ with state := { σ.state with heap := σ.state.heap.set p o' } }
  | null (σ : Session) {id : Nat} (hopen : σ.state.path.resolution? id = none) :
      HeapChange given σ (σ.assuming (.isNull id))
  | identify (σ : Session) {id p : Nat} (hopen : σ.state.path.resolution? id = none)
      (hlive : p < σ.state.heap.size) : HeapChange given σ (σ.assuming (.aliases id p))
  | expand (σ : Session) {id : Nat} {o : HeapObject} (hplain : o.IsPlain)
      (hopen : σ.state.path.resolution? id = none) (hroom : ¬σ.state.isFull) :
      HeapChange given σ ((σ.adding o).assuming (.expands id σ.state.heap.size o.className))

/-- What giving classes their static entries is made of, with the questions asked on the way. -/
inductive EntryChange : Session → Session → Prop
  | report (σ : Session) {e : Event} (hremark : e.IsRemark) :
      EntryChange σ { σ with events := e :: σ.events }
  | ask (σ : Session) (q : Query) : EntryChange σ { σ with queries := q :: σ.queries }
  /-- A class without a static entry is assumed not to be initialized, and gets its entry. -/
  | declare (σ : Session) {name : String} (hnew : ¬σ.state.hasKlass name) :
      EntryChange σ ((Exec.createKlass name).apply (σ.assuming (.notInitialized name))).2
  /-- A class is assumed to have been initialized before, if it can have an entry. -/
  | presume (σ : Session) {c : ClassFile} (hget : σ.state.hierarchy.get? c.name = some c) :
      EntryChange σ ((Exec.assumeOneInitialized c).apply σ).2

/-- What changing and withdrawing static entries is made of, and pushing and popping frames with
it. -/
inductive StoreChange : Session → Session → Prop
  | thread {σ τ : Session} (h : ThreadChange σ τ) : StoreChange σ τ
  | statics (σ : Session) (statics : Table Klass) :
      StoreChange σ { σ with state := { σ.state with statics } }

/-- The steps of all operations; those that take something back, or leave it open, are `lax`. -/
inductive Change (lax : Bool) : Session → Session → Prop
  | thread {σ τ : Session} (h : ThreadChange σ τ) : Change lax σ τ
  | value {σ τ : Session} (h : ValueChange σ τ) : Change lax σ τ
  | ask (σ : Session) (q : Query) : Change lax σ { σ with queries := q :: σ.queries }
  | allocate (σ : Session) (o : HeapObject) (hroom : ¬σ.state.isFull) : Change lax σ (σ.adding o)
  | store (σ : Session) {p : Nat} {o o' : HeapObject} (hget : σ.state.heap.get? p = some o)
      (hclass : o'.className = o.className) :
      Change lax σ { σ with state := { σ.state with heap := σ.state.heap.set p o' } }
  | null (σ : Session) {id : Nat} (hopen : σ.state.path.resolution? id = none) :
      Change lax σ (σ.assuming (.isNull id))
  | identify (σ : Session) {id p : Nat} (hopen : σ.state.path.resolution? id = none)
      (hlive : p < σ.state.heap.size) : Change lax σ (σ.assuming (.aliases id p))
  | expand (σ : Session) {id : Nat} {o : HeapObject} (hopen : σ.state.path.resolution? id = none)
      (hroom : ¬σ.state.isFull) :
      Change lax σ ((σ.adding o).assuming (.expands id σ.state.heap.size o.className))
  | update (σ : Session) {name : String} (k : Klass) (hhas : σ.state.hasKlass name) :
      Change lax σ { σ with state := { σ.state with statics := σ.state.statics.insert name k } }
  /-- A class gets its static entry, if it can have one. -/
  | create (σ : Session) (name : String) : Change lax σ ((Exec.createKlass name).apply σ).2
  | declare (σ : Session) {name : String} (hnew : ¬σ.state.hasKlass name) :
      Change lax σ ((Exec.createKlass name).apply (σ.assuming (.notInitialized name))).2
  | presume (σ : Session) {c : ClassFile} (hget : σ.state.hierarchy.get? c.name = some c) :
      Change lax σ ((Exec.assumeOneInitialized c).apply σ).2
  | suppose (σ : Session) (name : String) (hlax : lax) :
      Change lax σ (σ.assuming (.notInitialized name))
  | remove (σ : Session) (name : String) (hlax : lax) :
      Change lax σ { σ with state := { σ.state with statics := σ.state.statics.erase name } }

end Session

open Session (ValueChange ThreadChange ThrowChange HeapChange EntryChange StoreChange Change)

/-- The class will never get a static entry: the heap is full, or the class is missing or has a
static field that no value can be made for. -/
def State.Hopeless (s : State) (name : String) : Prop :=
  s.isFull ∨ s.hierarchy.get? name = none ∨
    ∃ c, s.hierarchy.get? name = some c ∧ ∃ f ∈ c.staticFields, ¬s.hierarchy.Supplies s.host c f

theorem Heap.get?_of_find {heap : Heap} {p : Nat} {o : HeapObject} (h : heap.find p = .ok o) :
    heap.get? p = some o := by
  unfold find at h
  split at h
  · next hget =>
    cases h
    exact hget
  · cases h

theorem unwind_events (h : Hierarchy) (thrown : String) (ref : Reference) (search : HandlerSearch)
    (frames : List Frame) :
    ∀ e ∈ (unwind h thrown ref search frames).events, e.IsRemark := by
  induction frames with
  | nil => simp [unwind, Event.IsRemark]
  | cons f rest ih =>
    rw [unwind]
    split
    · simp
    · simp [Event.IsRemark]
    · exact List.forall_mem_cons.2 ⟨by simp [Event.IsRemark], ih⟩

namespace Exec

variable {ε α : Type} {lax : Bool} {given : Value → Prop}

section Thread

theorem setStack_madeOf (stack : List Frame) :
    MadeOf ThreadChange (setStack stack : Exec ε Unit) :=
  fun σ => .single (.frames σ stack σ.state.uncaught)

theorem note_madeOf {e : Event} (hquiet : ∀ t, e ≠ .throwing t) :
    MadeOf ThreadChange (note e : Exec ε Unit) :=
  fun σ => .single (.report σ hquiet)

theorem noteAll_madeOf {events : List Event} (hremark : ∀ e ∈ events, e.IsRemark) :
    MadeOf ThreadChange (noteAll events) := by
  induction events with
  | nil => exact fun σ => .refl
  | cons e rest ih =>
    obtain ⟨he, hrest⟩ := List.forall_mem_cons.1 hremark
    intro σ
    have htail := ih hrest { σ with events := e :: σ.events }
    simp only [noteAll, List.reverse_cons, List.append_assoc, List.singleton_append] at htail ⊢
    exact .head (.report σ he.1) htail

theorem updateFrame_madeOf (f : Frame → Except Fault (α × Frame)) :
    MadeOf ThreadChange (updateFrame f) := by
  refine .bind .state fun s => ?_
  split
  · exact .throw _
  · exact .bind (.lift _) fun _ => (setStack_madeOf _).bind fun _ => .pure _

theorem pushPrepared_madeOf (frame : Frame) (offset : Nat) :
    MadeOf ThreadChange (pushPrepared frame offset) := by
  refine .bind (note_madeOf (by simp)) fun _ => .bind .state fun s => ?_
  split <;> exact setStack_madeOf _

theorem pushFrame_madeOf (signature : Signature) (isRoot : Bool) (offset : Nat)
    (args : List Value) : MadeOf ThreadChange (pushFrame signature isRoot offset args) := by
  refine .bind .state fun s => .bind (.lift _) fun c => ?_
  split
  · exact .throw _
  · refine .bind (.lift _) fun frame => ?_
    split
    · exact setStack_madeOf _
    · exact pushPrepared_madeOf _ _

theorem popFrame_madeOf : MadeOf ThreadChange popFrame := by
  refine .bind .state fun s => ?_
  split
  · exact .throw _
  · exact (setStack_madeOf _).bind fun _ => .pure _

theorem throwFrom_madeOf (ref : Reference) (search : HandlerSearch) :
    MadeOf ThreadChange (throwFrom ref search) := by
  have hend : MadeOf ThreadChange (endThread ref) :=
    fun σ => .single (.frames σ σ.state.stack (some ref))
  refine .bind .state fun s => .bind (.lift _) fun thrown => ?_
  split
  · exact .throw _
  refine (setStack_madeOf _).bind fun _ =>
    (noteAll_madeOf (unwind_events _ _ _ _ _)).bind fun _ => ?_
  split
  · exact .throw _
  · exact hend.bind fun _ => .pure _
  · exact .pure _

theorem raise_madeOf (t : Throwable) : MadeOf ThreadChange (raise t) := by
  intro σ
  rw [raise, apply_note_bind, apply_bind]
  cases hfields : σ.state.hierarchy.instanceFields t.className with
  | error e =>
    rw [createThrowable, apply_bind, apply_blankInstance]
    simp only [hfields]
    exact .single (.raiseFails σ hfields)
  | ok fields =>
    rw [apply_createThrowable (σ := { σ with events := .throwing t :: σ.events }) hfields]
    refine .head (.raise σ ⟨fields, hfields, rfl⟩) ?_
    exact ((updateFrame_madeOf _).bind fun _ => .pure _) _

end Thread

section Throwing

theorem remark_madeOf {e : Event} (hremark : e.IsRemark) :
    MadeOf ThrowChange (note e : Exec ε Unit) :=
  fun σ => .single (.report σ hremark)

theorem throwVerifyError_madeOf : MadeOf ThrowChange throwVerifyError := by
  have hraise : MadeOf ThrowChange (raise .verifyError) := fun σ => .single (.raise σ _)
  exact (hraise.bind fun ref σ => .single (.unwind σ ref .lenient)).mapError _

theorem throwObject_madeOf (ref : Reference) : MadeOf ThrowChange (throwObject ref) := by
  have hthrow : MadeOf ThrowChange (throwFrom ref .strict) := fun σ => .single (.unwind σ ref _)
  refine .bind hthrow.attempt fun r => ?_
  split
  · exact .pure _
  split
  · exact .bind (remark_madeOf (by simp [Event.IsRemark])) fun _ => throwVerifyError_madeOf
  · exact .bind (remark_madeOf (by simp [Event.IsRemark])) fun _ => throwVerifyError_madeOf
  · exact .throw _

theorem createAndThrow_madeOf (t : Throwable) : MadeOf ThrowChange (createAndThrow t) := by
  have hraise : MadeOf ThrowChange (raise t) := fun σ => .single (.raise σ t)
  unfold createAndThrow
  split
  · exact throwVerifyError_madeOf
  · exact .bind (hraise.mapError _) fun ref => throwObject_madeOf ref

theorem failInitialization_madeOf (cause : FailureCause) :
    MadeOf ThrowChange (failInitialization cause) := by
  cases cause with
  | throws t => exact (createAndThrow_madeOf t).bind fun _ => .pure _
  | fault e => exact .throw _

end Throwing

theorem MadeOf.thread {x : Exec ε α} (h : MadeOf ThreadChange x) : MadeOf (Change lax) x :=
  h.mono fun _ _ => .thread

section Objects

theorem allocateWithinLimit_madeOf {o : HeapObject} (hplain : o.IsPlain) :
    MadeOf (HeapChange given) (allocateWithinLimit o) := by
  intro σ
  rw [apply_allocateWithinLimit]
  split
  · exact .refl
  · next hroom => exact .single (.allocate σ hplain hroom)

theorem createInstance_madeOf (className : String) :
    MadeOf (HeapChange given) (createInstance className) := by
  intro σ
  rw [apply_createInstance]
  split
  · exact allocateWithinLimit_madeOf (HeapObject.ofFields_isPlain _ _) σ
  · exact .refl

theorem createArray_madeOf (component : FieldType) (length : Int32) :
    MadeOf (HeapChange given) (createArray component length) := by
  intro σ
  rw [apply_createArray]
  by_cases hgrants : σ.state.host.Grants length
  · rw [HeapObject.newArray_of_grants hgrants]
    exact allocateWithinLimit_madeOf (HeapObject.array_isPlain _ _) σ
  · rw [HeapObject.newArray_of_not_grants hgrants]

theorem updateObject_madeOf (ref : Reference) {f : HeapObject → Except Fault HeapObject}
    (hupdate : ∀ o o', f o = .ok o' →
      o'.className = o.className ∧ ∀ v ∈ o'.values, v ∈ o.values ∨ given v) :
    MadeOf (HeapChange given) (updateObject ref f) := by
  intro σ
  rw [apply_updateObject]
  cases hupdated : updatedObject σ.state ref f with
  | error e => exact .refl
  | ok entry =>
    obtain ⟨p, -, hupdated⟩ := except_bind_ok_iff.1 hupdated
    obtain ⟨o, hfind, hupdated⟩ := except_bind_ok_iff.1 hupdated
    obtain ⟨o', ho', hupdated⟩ := except_bind_ok_iff.1 hupdated
    cases hupdated
    obtain ⟨hclass, hvalues⟩ := hupdate o o' ho'
    exact .single (.store σ (Heap.get?_of_find hfind) hclass hvalues)

theorem setField_madeOf (ref : Reference) (field : String) (v : Value) :
    MadeOf (HeapChange (· = v)) (setField ref field v) := by
  refine updateObject_madeOf ref fun o o' ho =>
    ⟨?_, fun w hw => HeapObject.mem_values_of_setField ho hw⟩
  cases o with
  | object className fields =>
    rw [HeapObject.setField] at ho
    split at ho
    · cases ho
      rfl
    · cases ho
  | array component elements => cases ho

theorem setElement_madeOf (ref : Reference) (index : Int32) (v : Value) :
    MadeOf (HeapChange (· = v)) (setElement ref index v) := by
  refine updateObject_madeOf ref fun o o' ho =>
    ⟨?_, fun w hw => HeapObject.mem_values_of_setElement ho hw⟩
  cases o with
  | object className fields => cases ho
  | array component elements =>
    obtain ⟨i, -, ho⟩ := except_bind_ok_iff.1 ho
    cases ho
    rfl

end Objects

section Assumptions

theorem checkUnresolved_madeOf (ref : SymbolicRef) :
    MadeOf (HeapChange given) (checkUnresolved ref) := by
  refine .bind .state fun s => ?_
  split
  · exact .throw _
  · exact .pure _

theorem checkUnresolved_ok {ref : SymbolicRef} {σ τ : Session} {u : Unit}
    (h : (checkUnresolved ref).apply σ = (.ok u, τ)) :
    τ = σ ∧ σ.state.path.resolution? ref.id = none := by
  rw [checkUnresolved, apply_state_bind] at h
  split at h
  · cases h
  · next hopen =>
    cases h
    exact ⟨rfl, hopen⟩

theorem assumeNull_madeOf (ref : SymbolicRef) : MadeOf (HeapChange given) (assumeNull ref) := by
  refine (checkUnresolved_madeOf ref).bind_of_ok fun σ u τ hcheck => ?_
  obtain ⟨rfl, hopen⟩ := checkUnresolved_ok hcheck
  exact .single (.null τ hopen)

theorem assumeAliases_madeOf (ref : SymbolicRef) (position : Nat) :
    MadeOf (HeapChange given) (assumeAliases ref position) := by
  refine (checkUnresolved_madeOf ref).bind_of_ok fun σ u τ hcheck => ?_
  obtain ⟨rfl, hopen⟩ := checkUnresolved_ok hcheck
  rw [apply_state_bind, apply_bind, apply_liftM]
  cases hfind : τ.state.heap.find position with
  | error e => exact .refl
  | ok o =>
    have hlive : position < τ.state.heap.size :=
      (Array.getElem?_eq_some_iff.1 (Heap.get?_of_find hfind)).1
    exact .single (.identify τ hopen hlive)

theorem assumeExpands_madeOf (ref : SymbolicRef) (className : String) :
    MadeOf (HeapChange given) (assumeExpands ref className) := by
  refine (checkUnresolved_madeOf ref).bind_of_ok fun σ u τ hcheck => ?_
  obtain ⟨rfl, hopen⟩ := checkUnresolved_ok hcheck
  rw [apply_bind, apply_createInstance]
  cases τ.state.hierarchy.instanceFields className with
  | error e => exact .refl
  | ok fields =>
    dsimp only
    rw [apply_allocateWithinLimit]
    by_cases hfull : τ.state.isFull
    · rw [if_pos hfull]
    · rw [if_neg hfull]
      exact .single (.expand τ (HeapObject.ofFields_isPlain className fields) hopen hfull)

end Assumptions

section Statics

theorem createKlass_madeOf (className : String) : MadeOf (Change lax) (createKlass className) :=
  fun σ => .single (.create σ className)

theorem removeKlass_madeOf (className : String) (hlax : lax) :
    MadeOf (Change lax) (removeKlass className) :=
  fun σ => .single (.remove σ className hlax)

theorem assumeClassNotInitialized_madeOf (className : String) (hlax : lax) :
    MadeOf (Change lax) (assumeClassNotInitialized className) :=
  fun σ => .single (.suppose σ className hlax)

theorem findKlass_ok {s : State} {className : String} {k : Klass}
    (h : s.findKlass className = .ok k) : s.hasKlass className := by
  unfold State.findKlass at h
  split at h
  · next hget => exact State.hasKlass_iff.2 ⟨_, hget⟩
  · cases h

theorem setKlassStatus_madeOf (className : String) (status : KlassStatus) :
    MadeOf (Change lax) (setKlassStatus className status) := by
  refine .state_bind fun σ => ?_
  rw [apply_bind, apply_liftM]
  cases hfind : σ.state.findKlass className with
  | error e => exact .refl
  | ok k => exact .single (.update σ _ (findKlass_ok hfind))

theorem setStatic_madeOf (className field : String) (v : Value) :
    MadeOf (Change lax) (setStatic className field v) := by
  refine .state_bind fun σ => ?_
  rw [apply_bind, apply_liftM]
  cases hfind : σ.state.findKlass className with
  | error e => exact .refl
  | ok k =>
    dsimp only
    split
    · exact .single (.update σ _ (findKlass_ok hfind))
    · exact .refl

theorem assumeAllInitialized_steps {files : List ClassFile} {σ : Session}
    (hknown : ∀ c ∈ files, σ.state.hierarchy.get? c.name = some c) :
    ReflTransGen EntryChange σ ((assumeAllInitialized files).apply σ).2 := by
  induction files generalizing σ with
  | nil => exact .refl
  | cons c rest ih =>
    obtain ⟨hc, hrest⟩ := List.forall_mem_cons.1 hknown
    have hfirst : EntryChange σ ((assumeOneInitialized c).apply σ).2 := .presume σ hc
    rw [assumeAllInitialized, apply_bind]
    rcases hone : (assumeOneInitialized c).apply σ with ⟨e | _, ρ⟩
    · rw [hone] at hfirst
      exact .single hfirst
    · rw [hone] at hfirst
      obtain ⟨-, hgrows⟩ := assumeOneInitialized_ok hone
      rw [← State.Grows.hierarchy hgrows] at hrest
      exact .head hfirst (ih hrest)

theorem assumeClassInitialized_madeOf (className : String) :
    MadeOf EntryChange (assumeClassInitialized className) := by
  refine .state_bind fun σ => ?_
  rw [apply_bind, apply_liftM]
  cases hchain : σ.state.hierarchy.superclassChain className with
  | error e => exact .refl
  | ok files =>
    refine assumeAllInitialized_steps fun c hc => ?_
    exact (Hierarchy.superclassChain_ok_iff.1 hchain).get?_of_mem (List.mem_reverse.1 hc)

theorem finishInitializer_madeOf (method : Signature) :
    MadeOf (Change lax) (finishInitializer method) := by
  unfold finishInitializer
  split
  · refine .state_bind fun σ => ?_
    split
    · next k hget => exact .single (.update σ _ (State.hasKlass_iff.2 ⟨k, hget⟩))
    · exact .refl
  · exact .pure _

theorem completeFrame_madeOf (result : Option Value) :
    MadeOf (Change lax) (completeFrame result) := by
  refine popFrame_madeOf.thread.bind fun frame => ?_
  refine (finishInitializer_madeOf _).bind fun _ => .bind .state fun s => ?_
  split
  · exact .pure _
  · exact .bind (.lift _) fun _ => (setStack_madeOf _).thread

end Statics

section Store

theorem MadeOf.store {x : Exec ε α} (h : MadeOf ThreadChange x) : MadeOf StoreChange x :=
  h.mono fun _ _ => .thread

theorem insertKlass_stores (className : String) (k : Klass) :
    MadeOf StoreChange (insertKlass className k) :=
  fun σ => .single (.statics σ _)

theorem removeKlass_stores (className : String) : MadeOf StoreChange (removeKlass className) :=
  fun σ => .single (.statics σ _)

theorem setKlassStatus_stores (className : String) (status : KlassStatus) :
    MadeOf StoreChange (setKlassStatus className status) :=
  .bind .state fun _ => .bind (.lift _) fun _ => insertKlass_stores _ _

theorem commit_stores (created : List String) (frames : Nat) (entries : List Staged) :
    MadeOf StoreChange (commit created frames entries) := by
  induction entries generalizing frames with
  | nil => exact .pure _
  | cons e rest ih =>
    obtain ⟨name, frame | frame⟩ := e
    · exact .bind ((setKlassStatus_stores _ _).mapError _) fun _ => ih frames
    · refine .bind ((pushPrepared_madeOf _ _).store.mapError _) fun _ => ?_
      exact .bind ((setKlassStatus_stores _ _).mapError _) fun _ => ih (frames + 1)

theorem popFrames_madeOf (n : Nat) : MadeOf ThreadChange (popFrames n) := by
  induction n with
  | zero => exact .pure _
  | succ n ih => exact popFrame_madeOf.bind fun _ => ih

theorem removeKlasses_stores (names : List String) : MadeOf StoreChange (removeKlasses names) := by
  induction names with
  | nil => exact .pure _
  | cons name rest ih => exact (removeKlass_stores name).bind fun _ => ih

theorem rollBack_stores (policy : InitializationPolicy) (className : String) (a : Abandoned) :
    MadeOf StoreChange (rollBack policy className a) := by
  refine (popFrames_madeOf _).store.bind fun _ => ?_
  split
  · exact (removeKlasses_stores _).bind fun _ => (note_madeOf (by simp)).store
  · exact (note_madeOf (by simp)).store

end Store

section Entries

/-- How a class comes to its static entry. The values of its fields are made first; if that has
failed, then it will always fail. -/
inductive Enters (symbolic : Bool) (name : String) (enter : Table Value → Session → Session)
    (σ : Session) : Session → Prop
  | present (hhas : σ.state.hasKlass name) : Enters symbolic name enter σ σ
  | refused {τ : Session} (hnew : ¬σ.state.hasKlass name) (hsteps : ReflTransGen ValueChange σ τ)
      (hhopeless : τ.state.Hopeless name) : Enters symbolic name enter σ τ
  | entered {c : ClassFile} {values : Table Value} {ρ : Session} (hnew : ¬σ.state.hasKlass name)
      (hget : σ.state.hierarchy.get? name = some c) (hroom : ¬σ.state.isFull)
      (hvalues : (initialValues c symbolic ∅ c.staticFields).apply σ = (.ok values, ρ)) :
      Enters symbolic name enter σ (enter values ρ)

theorem hopeless_of_initialValues {symbolic : Bool} {c : ClassFile} {σ τ : Session} {e : Fault}
    (hget : σ.state.hierarchy.get? c.name = some c)
    (h : (initialValues c symbolic ∅ c.staticFields).apply σ = (.error e, τ)) :
    τ.state.Hopeless c.name := by
  have hmade := (initialValues_makesValues _ _ _ _).allocates h
  refine (initialValues_error h).imp_right fun hbad => .inr ⟨c, ?_⟩
  rw [hmade.hierarchy, hmade.host]
  exact ⟨hget, hbad⟩

/-- The session in which a class has got its entry. -/
def created (name : String) (values : Table Value) (σ : Session) : Session :=
  { σ with
    state := { σ.state with statics := σ.state.statics.insert name ⟨.notInitialized, values⟩ }
    events := .klassCreated name :: σ.events }

/-- The session in which a class is assumed to have been initialized before. -/
def presumed (name : String) (values : Table Value) (σ : Session) : Session :=
  { σ with state := { σ.state with
      path := σ.state.path.push (.initialized name)
      statics := σ.state.statics.insert name ⟨.initialized, values⟩ } }

theorem createKlass_enters (name : String) (σ : Session) :
    Enters false name (created name) σ ((createKlass name).apply σ).2 := by
  rw [createKlass, apply_state_bind]
  split
  · next hhas => exact .present hhas
  next hnew =>
  rw [apply_bind, apply_liftM]
  cases hfind : σ.state.hierarchy.find name with
  | error e => exact .refused hnew .refl (.inr (.inl (Hierarchy.find_error_iff.1 hfind).1))
  | ok c =>
    have hget := Hierarchy.find_ok_iff.1 hfind
    obtain rfl := Hierarchy.name_of_get? hget
    dsimp only [Except.mapError]
    rw [apply_bind, apply_liftM, State.checkCapacity]
    by_cases hfull : σ.state.isFull
    · rw [if_pos hfull]
      exact .refused hnew .refl (.inl hfull)
    rw [if_neg hfull]
    dsimp only
    rw [apply_bind]
    rcases hvalues : (initialValues c false ∅ c.staticFields).apply σ with ⟨e | values, τ⟩
    · exact .refused hnew ((initialValues_madeOf _ _ _ _).of_apply hvalues)
        (hopeless_of_initialValues hget hvalues)
    · exact .entered hnew hget hfull hvalues

theorem assumeOneInitialized_enters {c : ClassFile} {σ : Session}
    (hget : σ.state.hierarchy.get? c.name = some c) :
    Enters true c.name (presumed c.name) σ ((assumeOneInitialized c).apply σ).2 := by
  rw [assumeOneInitialized, apply_state_bind]
  split
  · next hhas => exact .present hhas
  next hnew =>
  rw [apply_bind, apply_liftM, State.checkCapacity]
  by_cases hfull : σ.state.isFull
  · rw [if_pos hfull]
    exact .refused hnew .refl (.inl hfull)
  rw [if_neg hfull]
  dsimp only
  rw [apply_bind]
  rcases hvalues : (initialValues c true ∅ c.staticFields).apply σ with ⟨e | values, τ⟩
  · exact .refused hnew ((initialValues_madeOf _ _ _ _).of_apply hvalues)
      (hopeless_of_initialValues hget hvalues)
  · exact .entered hnew hget hfull hvalues

end Entries

end Exec

namespace Session

variable {given : Value → Prop} {lax : Bool} {σ τ : Session}

theorem ThrowChange.steps (h : ThrowChange σ τ) : ReflTransGen ThreadChange σ τ := by
  cases h with
  | report hremark => exact .single (.report σ hremark.1)
  | raise t => exact Exec.raise_madeOf t σ
  | unwind ref search => exact Exec.throwFrom_madeOf ref search σ

theorem HeapChange.change (h : HeapChange given σ τ) : Change lax σ τ := by
  cases h with
  | allocate _ hroom => exact .allocate σ _ hroom
  | store hget hclass => exact .store σ hget hclass
  | null hopen => exact .null σ hopen
  | identify hopen hlive => exact .identify σ hopen hlive
  | expand _ hopen hroom => exact .expand σ hopen hroom

theorem EntryChange.change (h : EntryChange σ τ) : Change lax σ τ := by
  cases h with
  | report hremark => exact .thread (.report σ hremark.1)
  | ask q => exact .ask σ q
  | declare hnew => exact .declare σ hnew
  | presume hget => exact .presume σ hget

end Session

end SymbolicBytecode

import Mathlib
import SymbolicBytecode.Proofs.Runs
import SymbolicBytecode.Proofs.Supertypes

/-!
# Forced enums

Under a policy that forces enums, no oracle is asked about an enum class, and none is ever assumed
to have been initialized before. A class is assumed so together with all its superclasses, but only
the class itself is tested. `Session.SparesEnums` follows this from step to step: what is assumed to
have been initialized is at or above a class that is no enum. That it is no enum either is a matter
of subtyping.
-/
namespace SymbolicBytecode

open Relation (ReflTransGen)
open Session (ValueChange ThreadChange ThrowChange HeapChange PhaseChange)

namespace Hierarchy

variable {h : Hierarchy} {name : String}

/-- The class is the one that all enums extend, or below it. -/
def IsEnum (h : Hierarchy) (name : String) : Prop := h.isSubclass name enumClass

/-- The class is on the superclass chain of a class that is no enum. -/
def AboveOrdinary (h : Hierarchy) (name : String) : Prop :=
  ∃ first chain, ¬h.IsEnum first ∧ Ascent h first chain ∧ ∃ c ∈ chain, c.name = name

theorem AboveOrdinary.not_isEnum (hnames : ∀ n c, h.get? n = some c → ¬IsArrayName n)
    (habove : h.AboveOrdinary name) : ¬h.IsEnum name := by
  obtain ⟨first, chain, hfirst, hascent, c, hc, rfl⟩ := habove
  exact fun hname => hfirst (hascent.isSubclass hnames hc hname)

end Hierarchy

namespace Session

/-- From the first session to the second, classes have come to be assumed to have been initialized
before only if they are at or above one that is no enum, and no oracle was asked about an enum. -/
structure SparesEnums (σ τ : Session) : Prop where
  hierarchy : τ.state.hierarchy = σ.state.hierarchy
  path : ∀ name, .initialized name ∈ τ.state.path.clauses →
    .initialized name ∈ σ.state.path.clauses ∨ σ.state.hierarchy.AboveOrdinary name
  queries : ∀ q ∈ τ.queries, q ∈ σ.queries ∨ ¬σ.state.hierarchy.IsEnum q.className

variable {σ τ ρ : Session} {given : Value → Prop}

namespace SparesEnums

/-- Nothing was asked, and no class was assumed to have been initialized before. -/
theorem quiet (hhierarchy : τ.state.hierarchy = σ.state.hierarchy)
    (hpath : ∀ name, .initialized name ∈ τ.state.path.clauses →
      .initialized name ∈ σ.state.path.clauses)
    (hqueries : τ.queries = σ.queries) : σ.SparesEnums τ where
  hierarchy := hhierarchy
  path name hname := .inl (hpath name hname)
  queries _ hq := .inl (hqueries ▸ hq)

theorem refl (σ : Session) : σ.SparesEnums σ := quiet rfl (fun _ => id) rfl

theorem trans (h : σ.SparesEnums ρ) (h' : ρ.SparesEnums τ) : σ.SparesEnums τ where
  hierarchy := h'.hierarchy.trans h.hierarchy
  path name hname := by
    rcases h'.path name hname with hold | habove
    · exact h.path name hold
    · exact .inr (h.hierarchy ▸ habove)
  queries q hq := by
    rcases h'.queries q hq with hold | hfree
    · exact h.queries q hold
    · exact .inr (h.hierarchy ▸ hfree)

theorem of_steps (hsteps : ReflTransGen SparesEnums σ τ) : σ.SparesEnums τ :=
  inv_of_steps σ.SparesEnums (fun _ _ hlast h => h.trans hlast) hsteps (refl σ)

theorem assuming (σ : Session) {c : Clause} (hother : ∀ name, c ≠ .initialized name) :
    σ.SparesEnums (σ.assuming c) := by
  refine quiet rfl (fun name hname => ?_) rfl
  rcases List.mem_append.1 hname with hold | hnew
  · exact hold
  · exact absurd (List.mem_singleton.1 hnew).symm (hother name)

/-- A class at or above one that is no enum is assumed to have been initialized before. -/
theorem presuming (σ : Session) {name : String} (habove : σ.state.hierarchy.AboveOrdinary name) :
    σ.SparesEnums (σ.assuming (.initialized name)) where
  hierarchy := rfl
  path other hother := by
    rcases List.mem_append.1 hother with hold | hnew
    · exact .inl hold
    · cases List.mem_singleton.1 hnew
      exact .inr habove
  queries _ := .inl

theorem asking (σ : Session) {q : Query} (hfree : ¬σ.state.hierarchy.IsEnum q.className) :
    σ.SparesEnums { σ with queries := q :: σ.queries } where
  hierarchy := rfl
  path _ := .inl
  queries other hother := by
    rcases List.mem_cons.1 hother with rfl | hold
    · exact .inr hfree
    · exact .inl hold

end SparesEnums

theorem ThreadChange.sparesEnums (h : ThreadChange σ τ) : σ.SparesEnums τ := by
  cases h <;> exact .quiet rfl (fun _ => id) rfl

theorem ValueChange.sparesEnums (h : ValueChange σ τ) : σ.SparesEnums τ := by
  cases h with
  | symbol => exact .quiet rfl (fun _ => id) rfl
  | intern hrun =>
    obtain ⟨ρ, hinterns, rfl⟩ := Exec.internString_interns hrun
    cases hinterns <;> exact .quiet rfl (fun _ => id) rfl

theorem HeapChange.sparesEnums (h : HeapChange given σ τ) : σ.SparesEnums τ := by
  cases h with
  | allocate => exact .quiet rfl (fun _ => id) rfl
  | store => exact .quiet rfl (fun _ => id) rfl
  | null => exact .assuming σ (by simp)
  | identify => exact .assuming σ (by simp)
  | @expand _ o =>
    have hadd : σ.SparesEnums (σ.adding o) := .quiet rfl (fun _ => id) rfl
    exact hadd.trans (.assuming _ (by simp))

end Session

open Session (SparesEnums)

namespace Exec

variable {ε α β : Type} {policy : InitializationPolicy} {oracle : Oracle} {className : String}
  {σ τ : Session}

theorem MadeOf.sparesEnums {x : Exec ε α} (h : MadeOf ThreadChange x) : MadeOf SparesEnums x :=
  h.mono fun _ _ => ThreadChange.sparesEnums

theorem MadeOf.sparesEnums_of_throws {x : Exec ε α} (h : MadeOf ThrowChange x) :
    MadeOf SparesEnums x :=
  (h.refine fun _ _ => ThrowChange.steps).sparesEnums

/-- The first operation need only spare enums in the session that it is applied to. -/
theorem sparesEnums_bind {x : Exec ε α} {f : α → Exec ε β}
    (hx : σ.SparesEnums (x.apply σ).2) (hf : ∀ a, MadeOf SparesEnums (f a)) :
    σ.SparesEnums ((x >>= f).apply σ).2 := by
  rw [apply_bind]
  rcases hr : x.apply σ with ⟨e | a, τ⟩
  · rwa [hr] at hx
  · rw [hr] at hx
    exact hx.trans (.of_steps (hf a τ))

section Statics

theorem insertKlass_sparesEnums (name : String) (k : Klass) :
    MadeOf SparesEnums (insertKlass name k) :=
  fun _ => .single (.quiet rfl (fun _ => id) rfl)

theorem initialValues_sparesEnums (c : ClassFile) (symbolic : Bool) (found : Table Value)
    (fields : List Field) : MadeOf SparesEnums (initialValues c symbolic found fields) :=
  (initialValues_madeOf c symbolic fields found).mono fun _ _ => ValueChange.sparesEnums

theorem createKlass_sparesEnums (name : String) : MadeOf SparesEnums (createKlass name) := by
  refine .bind .state fun s => ?_
  split
  · exact .pure _
  refine .bind (.lift _) fun c => .bind (.lift _) fun _ => ?_
  refine (initialValues_sparesEnums _ _ _ _).bind fun values => ?_
  exact (note_madeOf (by simp)).sparesEnums.bind fun _ => insertKlass_sparesEnums _ _

theorem removeKlass_sparesEnums (name : String) : MadeOf SparesEnums (removeKlass name) :=
  fun _ => .single (.quiet rfl (fun _ => id) rfl)

theorem setKlassStatus_sparesEnums (name : String) (status : KlassStatus) :
    MadeOf SparesEnums (setKlassStatus name status) :=
  .bind .state fun _ => .bind (.lift _) fun _ => insertKlass_sparesEnums _ _

theorem setStatic_sparesEnums (name field : String) (v : Value) :
    MadeOf SparesEnums (setStatic name field v) := by
  refine .bind .state fun _ => .bind (.lift _) fun _ => ?_
  split
  · exact insertKlass_sparesEnums _ _
  · exact .throw _

theorem assumeClassNotInitialized_sparesEnums (name : String) :
    MadeOf SparesEnums (assumeClassNotInitialized name) :=
  fun σ => .single (.assuming σ (by simp))

theorem completeFrame_sparesEnums (result : Option Value) :
    MadeOf SparesEnums (completeFrame result) := by
  have hfinish (method : Signature) : MadeOf SparesEnums (finishInitializer method) := by
    unfold finishInitializer
    split
    · refine .bind .state fun s => ?_
      split
      · exact insertKlass_sparesEnums _ _
      · exact .pure _
    · exact .pure _
  refine popFrame_madeOf.sparesEnums.bind fun frame => (hfinish _).bind fun _ => ?_
  refine .bind .state fun s => ?_
  split
  · exact .pure _
  · exact .bind (.lift _) fun _ => (setStack_madeOf _).sparesEnums

theorem assumeOneInitialized_sparesEnums {c : ClassFile}
    (habove : σ.state.hierarchy.AboveOrdinary c.name) :
    σ.SparesEnums ((assumeOneInitialized c).apply σ).2 := by
  rw [assumeOneInitialized, apply_state_bind]
  split
  · exact .refl σ
  refine .of_steps (MadeOf.steps_bind (.lift _) fun _ ρ hroom => ?_)
  rw [apply_liftM, Prod.mk.injEq] at hroom
  obtain ⟨-, rfl⟩ := hroom
  refine (initialValues_sparesEnums c true ∅ c.staticFields).steps_bind fun values ρ hvalues => ?_
  have hspares := SparesEnums.of_steps ((initialValues_sparesEnums _ _ _ _).of_apply hvalues)
  rw [← hspares.hierarchy] at habove
  exact .head (.presuming ρ habove) (insertKlass_sparesEnums _ _ _)

theorem assumeAllInitialized_sparesEnums {files : List ClassFile}
    (habove : ∀ c ∈ files, σ.state.hierarchy.AboveOrdinary c.name) :
    σ.SparesEnums ((assumeAllInitialized files).apply σ).2 := by
  induction files generalizing σ with
  | nil => exact .refl σ
  | cons c rest ih =>
    obtain ⟨hc, hrest⟩ := List.forall_mem_cons.1 habove
    have hone := assumeOneInitialized_sparesEnums hc
    rw [assumeAllInitialized, apply_bind]
    rcases hrun : (assumeOneInitialized c).apply σ with ⟨e | _, ρ⟩
    · rwa [hrun] at hone
    · rw [hrun] at hone
      -- The chain was found before the first of its classes was assumed; it is still the same.
      exact hone.trans (ih (hone.hierarchy ▸ hrest))

theorem assumeClassInitialized_sparesEnums (hfree : ¬σ.state.hierarchy.IsEnum className) :
    σ.SparesEnums ((assumeClassInitialized className).apply σ).2 := by
  rw [assumeClassInitialized, apply_state_bind, apply_bind, apply_liftM]
  cases hchain : σ.state.hierarchy.superclassChain className with
  | error e => exact .refl σ
  | ok chain =>
    refine assumeAllInitialized_sparesEnums fun c hc => ?_
    exact ⟨className, chain, hfree, Hierarchy.superclassChain_ok_iff.1 hchain, c,
      List.mem_reverse.1 hc, rfl⟩

end Statics

section Initialization

/-- An enum is decided without the oracle. -/
theorem decideInitialized_sparesEnums (hforce : policy.forceEnums) (oracle : Oracle)
    (className : String) : MadeOf SparesEnums (decideInitialized policy oracle className) := by
  refine .state_bind fun σ => ?_
  split
  · exact .single (.quiet rfl (fun _ => id) rfl)
  · next hother =>
    rw [apply_ask]
    refine .single (.asking σ ?_)
    simpa [hforce, Hierarchy.IsEnum] using hother

theorem not_isEnum_of_decideInitialized (hforce : policy.forceEnums)
    (h : (decideInitialized policy oracle className).apply σ = (.ok true, τ)) :
    ¬τ.state.hierarchy.IsEnum className := by
  have hspares := SparesEnums.of_steps
    ((decideInitialized_sparesEnums hforce oracle className).of_apply h)
  rw [hspares.hierarchy]
  rw [decideInitialized, apply_state_bind] at h
  split at h
  · cases h
  · next hother => simpa [hforce, Hierarchy.IsEnum] using hother

theorem needsInitialization_sparesEnums (hforce : policy.forceEnums) (oracle : Oracle)
    (className : String) : MadeOf SparesEnums (needsInitialization policy oracle className) := by
  refine .state_bind fun σ => ?_
  split
  · exact .refl
  refine ((decideInitialized_sparesEnums hforce oracle className).mapError _).steps_bind
    fun initialized τ hdecide => ?_
  rw [apply_mapError_ok_iff] at hdecide
  split
  · next htrue =>
    rw [htrue] at hdecide
    have hfree := not_isEnum_of_decideInitialized hforce hdecide
    refine (note_madeOf (by simp)).sparesEnums.steps_bind fun _ ρ hnote => ?_
    cases hnote
    refine .single (sparesEnums_bind ?_ fun _ => .pure _)
    exact assumeClassInitialized_sparesEnums hfree
  · refine (note_madeOf (by simp)).sparesEnums.bind (fun _ => ?_) τ
    exact ((assumeClassNotInitialized_sparesEnums _).mapError _).bind fun _ => .pure _

theorem stage_sparesEnums (hforce : policy.forceEnums) (oracle : Oracle)
    (created names : List String) : MadeOf SparesEnums (stage policy oracle created names) := by
  induction names generalizing created with
  | nil => exact .pure _
  | cons name rest ih =>
    rw [stage_cons]
    refine ((createKlass_sparesEnums name).mapError _).bind fun _ => .bind ?_ fun above => ?_
    · cases rest with
      | nil => exact .pure _
      | cons superName rest =>
        refine ((needsInitialization_sparesEnums hforce oracle superName).mapError _).bind
          fun needed => ?_
        split
        · exact ih _
        · exact .pure _
    · refine .bind .state fun s => .bind (.mapError (.lift _) _) fun frame => ?_
      exact (note_madeOf (by simp)).sparesEnums.bind fun _ => .pure _

theorem commit_sparesEnums (created : List String) (frames : Nat) (entries : List Staged) :
    MadeOf SparesEnums (commit created frames entries) := by
  induction entries generalizing frames with
  | nil => exact .pure _
  | cons e rest ih =>
    obtain ⟨name, frame⟩ := e
    cases frame with
    | some frame =>
      refine ((pushPrepared_madeOf frame 0).sparesEnums.mapError _).bind fun _ => ?_
      exact ((setKlassStatus_sparesEnums name _).mapError _).bind fun _ => ih _
    | none => exact ((setKlassStatus_sparesEnums name _).mapError _).bind fun _ => ih _

theorem rollBack_sparesEnums (policy : InitializationPolicy) (className : String) (a : Abandoned) :
    MadeOf SparesEnums (rollBack policy className a) := by
  have hpop (count : Nat) : MadeOf SparesEnums (popFrames count) := by
    induction count with
    | zero => exact .pure _
    | succ count ih => exact popFrame_madeOf.sparesEnums.bind fun _ => ih
  have hremove (names : List String) : MadeOf SparesEnums (removeKlasses names) := by
    induction names with
    | nil => exact .pure _
    | cons name rest ih => exact (removeKlass_sparesEnums name).bind fun _ => ih
  have hnote (e : Event) (hquiet : ∀ t, e ≠ .throwing t) :
      MadeOf SparesEnums (note e : Exec Fault Unit) := (note_madeOf hquiet).sparesEnums
  refine (hpop _).bind fun _ => ?_
  split
  · exact (hremove _).bind fun _ => hnote _ (by simp)
  · exact hnote _ (by simp)

theorem initializeClass_sparesEnums (hforce : policy.forceEnums) (oracle : Oracle)
    (className : String) : MadeOf SparesEnums (initializeClass policy oracle className) := by
  refine .state_bind fun σ => ?_
  split
  · exact .refl
  refine (decideInitialized_sparesEnums hforce oracle className).steps_bind
    fun initialized τ hdecide => ?_
  split
  · next htrue =>
    rw [htrue] at hdecide
    have hfree := not_isEnum_of_decideInitialized hforce hdecide
    refine (note_madeOf (by simp)).sparesEnums.steps_bind fun _ ρ hnote => ?_
    cases hnote
    refine .single (sparesEnums_bind ?_ fun r => ?_)
    · exact assumeClassInitialized_sparesEnums hfree
    · split
      · exact .pure _
      · exact (failInitialization_madeOf _).sparesEnums_of_throws
  · refine (note_madeOf (by simp)).sparesEnums.bind (fun _ => ?_) τ
    refine ((assumeClassNotInitialized_sparesEnums _).mapError _).bind fun _ => ?_
    refine .bind (.attempt (.bind (stage_sparesEnums hforce oracle _ _) fun staged =>
      commit_sparesEnums _ _ _)) fun outcome => ?_
    split
    · exact .pure _
    · refine ((rollBack_sparesEnums _ _ _).mapError _).bind fun _ => ?_
      exact (failInitialization_madeOf _).sparesEnums_of_throws

end Initialization

end Exec

theorem Session.PhaseChange.sparesEnums {policy : InitializationPolicy} {oracle : Oracle}
    {strategies : Strategies} {σ τ : Session} (h : PhaseChange policy oracle strategies σ τ)
    (hforce : policy.forceEnums) : σ.SparesEnums τ := by
  cases h with
  | initialization name => exact .of_steps (Exec.initializeClass_sparesEnums hforce oracle name σ)
  | call h =>
    exact .of_steps (ReflTransGen.mono (fun _ _ => ThreadChange.sparesEnums) _ _ h.steps)

namespace Operation

variable {engine : Engine}

/-- The operation does not assume on its own that an enum has been initialized before. -/
def LeavesEnums (h : Hierarchy) : Operation → Prop
  | assumeClassInitialized className => ¬h.IsEnum className
  | _ => True

theorem after_sparesEnums (hforce : engine.policy.forceEnums) (σ : Session) {op : Operation}
    (hop : op.LeavesEnums σ.state.hierarchy) : σ.SparesEnums (op.after engine σ) := by
  have hthread {ε α : Type} {x : Exec ε α} (hx : Exec.MadeOf ThreadChange x) :
      σ.SparesEnums (x.apply σ).2 :=
    .of_steps (hx.sparesEnums σ)
  have hheap {ε α : Type} {x : Exec ε α} (hx : Exec.MadeOf (HeapChange op.Gives) x) :
      σ.SparesEnums (x.apply σ).2 :=
    .of_steps (hx.mono (fun _ _ => HeapChange.sparesEnums) σ)
  have hvalue {ε α : Type} {x : Exec ε α} (hx : Exec.MadeOf ValueChange x) :
      σ.SparesEnums (x.apply σ).2 :=
    .of_steps (hx.mono (fun _ _ => ValueChange.sparesEnums) σ)
  have hphases {ε α : Type} {x : Exec ε α}
      (hx : Exec.MadeOf (PhaseChange engine.policy engine.oracle engine.strategies) x) :
      σ.SparesEnums (x.apply σ).2 :=
    .of_steps (hx.mono (fun _ _ h => h.sparesEnums hforce) σ)
  cases op with
  | createKlass className => exact .of_steps (Exec.createKlass_sparesEnums _ σ)
  | removeKlass className => exact .of_steps (Exec.removeKlass_sparesEnums _ σ)
  | setKlassStatus className status => exact .of_steps (Exec.setKlassStatus_sparesEnums _ _ σ)
  | assumeClassInitialized className => exact Exec.assumeClassInitialized_sparesEnums hop
  | assumeClassNotInitialized className =>
    exact .of_steps (Exec.assumeClassNotInitialized_sparesEnums _ σ)
  | setStatic className field v => exact .of_steps (Exec.setStatic_sparesEnums _ _ _ σ)
  | createInstance className => exact hheap (Exec.createInstance_madeOf _)
  | createThrowable className =>
    rw [after]
    cases hfields : σ.state.hierarchy.instanceFields className with
    | error e =>
      rw [Exec.createThrowable, Exec.apply_bind, Exec.apply_blankInstance, hfields]
      exact .refl σ
    | ok fields =>
      rw [Exec.apply_createThrowable hfields]
      exact .quiet rfl (fun _ => id) rfl
  | createArray component length => exact hheap (Exec.createArray_madeOf _ _)
  | internString text => exact hvalue (Exec.internString_madeOf _)
  | setField ref field v => exact hheap (Exec.setField_madeOf _ _ _)
  | setElement ref index v => exact hheap (Exec.setElement_madeOf _ _ _)
  | newSymbolicRef origin staticType => exact hvalue (Exec.newSymbolicRef_madeOf _ _)
  | newSymbol origin type => exact hvalue (Exec.newSymbol_madeOf _ _)
  | assumeNull ref => exact hheap (Exec.assumeNull_madeOf _)
  | assumeAliases ref position => exact hheap (Exec.assumeAliases_madeOf _ _)
  | assumeExpands ref className => exact hheap (Exec.assumeExpands_madeOf _ _)
  | updateFrame f => exact hthread (Exec.updateFrame_madeOf _)
  | popOperands count => exact hthread (Exec.updateFrame_madeOf _)
  | pushPrepared frame returnOffset => exact hthread (Exec.pushPrepared_madeOf _ _)
  | pushFrame signature isRoot returnOffset args => exact hthread (Exec.pushFrame_madeOf _ _ _ _)
  | popFrame => exact hthread Exec.popFrame_madeOf
  | completeFrame result => exact .of_steps (Exec.completeFrame_sparesEnums _ σ)
  | throwFrom ref search => exact hthread (Exec.throwFrom_madeOf _ _)
  | throwObject ref => exact hphases (Exec.throwObject_madeOf _).phaseChange
  | throwVerifyError => exact hphases Exec.throwVerifyError_madeOf.phaseChange
  | createAndThrow t => exact hphases (Exec.createAndThrow_madeOf _).phaseChange
  | initializeClass className =>
    exact .of_steps (Exec.initializeClass_sparesEnums hforce _ _ σ)
  | ensureKlass className =>
    refine .of_steps ((Exec.initializeClass_sparesEnums hforce _ className).bind (fun i => ?_) σ)
    split <;> exact .pure _
  | invoke kind => exact hphases (Exec.invoke_phases _ _ _ _)
  | step => exact hphases engine.step_phases

end Operation

namespace Session

theorem run_sparesEnums {ops : List (Engine × Operation)} (σ : Session)
    (hops : ∀ entry ∈ ops,
      entry.1.policy.forceEnums ∧ entry.2.LeavesEnums σ.state.hierarchy) :
    σ.SparesEnums (σ.run ops) := by
  induction ops generalizing σ with
  | nil => exact .refl σ
  | cons entry rest ih =>
    obtain ⟨⟨hforce, hop⟩, hrest⟩ := List.forall_mem_cons.1 hops
    have hfirst := Operation.after_sparesEnums hforce σ hop
    exact hfirst.trans (ih _ (hfirst.hierarchy ▸ hrest))

theorem initialState_sparesEnums {engine : Engine} {h : Hierarchy} {root : Signature}
    {args : List Value} {s : State} (hs : engine.initialState h root args = .ok s) :
    (start (.create h engine.heapLimit engine.host)).SparesEnums (start s) := by
  have hpush := SparesEnums.of_steps ((Exec.pushFrame_madeOf root true 0 args).sparesEnums
    (start (.create h engine.heapLimit engine.host)))
  rw [Engine.initialState] at hs
  split at hs
  · next σ hrun =>
    cases hs
    rw [hrun] at hpush
    exact ⟨hpush.hierarchy, hpush.path, by simp [start]⟩
  · cases hs

/-- **Enums are never assumed to have been initialized before.** Let no class have the name of an
array class. Then on a run of engines that force enums, no enum class is ever assumed to have been
initialized before, and no oracle is asked about one, whatever the oracles answer and however
operations fail. -/
theorem run_enums_forced {engine : Engine} {h : Hierarchy} {root : Signature} {args : List Value}
    {s : State} {ops : List (Engine × Operation)} {σ : Session}
    (hnames : ∀ name c, h.get? name = some c → ¬IsArrayName name)
    (hs : engine.initialState h root args = .ok s)
    (hops : ∀ entry ∈ ops, entry.1.policy.forceEnums ∧ entry.2.LeavesEnums h)
    (hσ : (start s).run ops = σ) :
    σ.state.hierarchy = h ∧ ∀ name, h.isSubclass name enumClass →
      .initialized name ∉ σ.state.path.clauses ∧ ∀ q ∈ σ.queries, q.className ≠ name := by
  have hstart := initialState_sparesEnums hs
  have hrun : (start s).SparesEnums ((start s).run ops) :=
    run_sparesEnums (start s) (hstart.hierarchy ▸ hops)
  rw [hσ] at hrun
  have hspares := hstart.trans hrun
  refine ⟨hspares.hierarchy, fun name hname => ⟨fun hassumed => ?_, fun q hq heq => ?_⟩⟩
  · rcases hspares.path name hassumed with hold | habove
    · cases hold
    · exact habove.not_isEnum hnames hname
  · rcases hspares.queries q hq with hold | hfree
    · cases hold
    · exact hfree (heq ▸ hname)

/-- An enum with a method that calls itself. -/
def suit : ClassFile :=
  ({ ClassOutline.publicClass "Suit" with
    superName := some enumClass
    constants := [.methodRef ⟨"Suit", "deal", "()V"⟩]
    methods := [⟨0x0009, "deal", "()V", some ⟨0, 0, [0xb8, 0, 6, 0xb1], []⟩⟩] } :
      ClassOutline).build

/-- The enum and four classes above each other. The interface of the class that enums extend is
missing. -/
def suitClasses : Hierarchy :=
  [Bootstrap.object.build, Bootstrap.enum.build, suit].foldl Hierarchy.add (Exec.ladder .empty)

def suitState : State :=
  { State.create suitClasses none .ample with
    stack := [⟨⟨"Suit", "deal", "()V"⟩, suit, [0xb8, 0, 6, 0xb1], [], 0, 0, [], []⟩] }

/-- The oracle says of every class that it was initialized before. -/
def trustingEngine : Engine := ⟨none, .ample, .standard, .fixed true, .standard⟩

def suitOperations : List (Engine × Operation) :=
  [(trustingEngine, .ensureKlass "Leaf"), (trustingEngine, .step)]

/-- One question is enough for the four classes of a superclass chain to be assumed to have been
initialized before. The enum and the class that it extends are not, but the root class above is. -/
theorem suit_enums_forced :
    (∀ name c, suitClasses.get? name = some c → ¬IsArrayName name) ∧
    trustingEngine.initialState suitClasses ⟨"Suit", "deal", "()V"⟩ [] = .ok suitState ∧
    ∃ σ, (start suitState).run suitOperations = σ ∧
      σ.state.path.clauses =
        [.initialized "Root", .initialized "Base", .initialized "Middle", .initialized "Leaf",
          .notInitialized "Suit", .notInitialized enumClass, .initialized objectClass] ∧
      σ.queries.map Query.className = [objectClass, "Leaf"] ∧
      suitClasses.isSubclass "Suit" enumClass ∧
      ∀ name, suitClasses.isSubclass name enumClass →
        .initialized name ∉ σ.state.path.clauses ∧ ∀ q ∈ σ.queries, q.className ≠ name := by
  have hnames : ∀ name c, suitClasses.get? name = some c → ¬IsArrayName name := by
    intro name c hget
    have hentries : ∀ entry ∈ suitClasses.classes.entries, ¬IsArrayName entry.1 := by
      decide +kernel
    exact hentries (name, c) ((Table.mem_entries_iff _ name c).2 hget)
  have hs : trustingEngine.initialState suitClasses ⟨"Suit", "deal", "()V"⟩ [] =
      .ok suitState :=
    trustingEngine.initialState_of_frame (c := suit)
      (m := ⟨0x0009, "deal", "()V", some ⟨0, 0, [0xb8, 0, 6, 0xb1], []⟩⟩) (by decide +kernel)
      (by decide +kernel) (by decide +kernel)
  have hops : ∀ entry ∈ suitOperations,
      entry.1.policy.forceEnums ∧ entry.2.LeavesEnums suitClasses := by
    simp [suitOperations, trustingEngine, InitializationPolicy.standard, Operation.LeavesEnums]
  refine ⟨hnames, hs, _, rfl, ?_, ?_, ?_, (run_enums_forced hnames hs hops rfl).2⟩
  all_goals decide +kernel

end Session

end SymbolicBytecode

import Mathlib
import SymbolicBytecode.Proofs.Cascade
import SymbolicBytecode.Proofs.Unwinding

/-!
# Class initialization

The second pass of initialization pushes the frames that the first has made, and cannot fail. So the
initialization of a class comes to one of three ends: the class is present, the cascade of the class
is on the thread with the topmost superclass first in line, or a failure takes effect on a thread
that is as it was before.
-/
namespace SymbolicBytecode

open State (Grows GrowsTo GrowsInitialized)

variable {policy : InitializationPolicy} {oracle : Oracle} {s : State}

def Hierarchy.declaresInitializer (h : Hierarchy) (className : String) : Bool :=
  (h.get? className).any fun c => c.methods.any fun m =>
    m.name = "<clinit>" && m.descriptor = "()V" && m.accessFlags.isStatic

theorem State.initializerFrame_declares {className : String} {frame : Option Frame}
    (h : s.initializerFrame className = .ok frame) :
    (frame = none ∧ s.hierarchy.declaresInitializer className = false) ∨
    ∃ f, frame = some f ∧ s.hierarchy.declaresInitializer className = true ∧
      IsInitializerFrame s.hierarchy className f := by
  obtain ⟨c, hget, ⟨rfl, hnone⟩ | ⟨f, rfl, hf⟩⟩ := State.initializerFrame_ok h
  · refine .inl ⟨rfl, ?_⟩
    rw [Hierarchy.declaresInitializer, hget, Option.any_some, List.any_eq_false]
    intro m hm
    have hother := List.find?_eq_none.1 hnone m hm
    simp only [Bool.and_eq_true] at hother ⊢
    exact fun hdeclared => hother hdeclared.1
  · refine .inr ⟨f, rfl, ?_, hf⟩
    obtain ⟨c, m, code, hget, hm, hstatic, -⟩ := hf
    rw [Hierarchy.declaresInitializer, hget, Option.any_some, List.any_eq_true]
    have hfound := List.find?_some hm
    exact ⟨m, List.mem_of_find?_eq_some hm, by rw [hfound, hstatic]; rfl⟩

/-- The status of a class whose superclasses have been dealt with: being initialized, if it has a
class initialization method to run, and initialized otherwise. -/
def Hierarchy.startStatus (h : Hierarchy) (className : String) : KlassStatus :=
  if h.declaresInitializer className then .initializing else .initialized

/-- The frames of a thread whose current frame resumes at its present instruction. -/
def resumingHere : List Frame → List Frame
  | [] => []
  | f :: rest => { f with returnPc := f.pc } :: rest

theorem Cascade.nodup {asked : List Query} {before chain assumed : List String} {name : String}
    (hcascade : Cascade policy oracle s asked before name chain assumed) (hnew : name ∉ before) :
    (∀ n ∈ chain, n ∉ before) ∧ chain.Nodup := by
  induction hcascade with
  | top | present | assumed => simpa using hnew
  | @step asked before name superName chain assumed hleads habsent hverdict rest ih =>
    have hnotMem : superName ∉ before ++ [name] := fun hmem => habsent (.inr hmem)
    obtain ⟨hbefore, hnodup⟩ := ih hnotMem
    refine ⟨?_, List.nodup_cons.2 ⟨fun hmem => hbefore name hmem (by simp), hnodup⟩⟩
    intro n hn
    rcases List.mem_cons.1 hn with rfl | hn
    · exact hnew
    · exact fun hmem => hbefore n hn (List.mem_append_left _ hmem)

/-- The thread and the classes it can use are the same in both states. -/
structure State.SameThread (s t : State) : Prop where
  hierarchy : t.hierarchy = s.hierarchy
  stack : t.stack = s.stack
  uncaught : t.uncaught = s.uncaught

theorem State.GrowsTo.sameThread {t : State} (h : GrowsTo s t) : s.SameThread t :=
  ⟨h.hierarchy, h.stack, h.uncaught⟩

theorem State.SameThread.trans {t u : State} (h : s.SameThread t) (h' : t.SameThread u) :
    s.SameThread u :=
  ⟨h'.hierarchy.trans h.hierarchy, h'.stack.trans h.stack, h'.uncaught.trans h.uncaught⟩

def Staged.status (e : Staged) : KlassStatus :=
  if e.frame.isSome then .initializing else .initialized

def Staged.settle (e : Staged) (statics : Table Klass) : Table Klass :=
  match statics.get? e.className with
  | some k => statics.insert e.className { k with status := e.status }
  | none => statics

theorem Staged.get?_settle (e : Staged) (statics : Table Klass) (name : String) :
    (e.settle statics).get? name =
      if name = e.className then (statics.get? name).map ({ · with status := e.status })
      else statics.get? name := by
  unfold settle
  split
  · next k hget =>
    rw [Table.get?_insert]
    split
    · next heq => rw [heq, hget]; rfl
    · rfl
  · next hnone =>
    split
    · next heq => rw [heq, hnone]; rfl
    · rfl

def setStatuses : List Staged → Table Klass → Table Klass
  | [], statics => statics
  | e :: rest, statics => setStatuses rest (e.settle statics)

theorem get?_setStatuses_of_notMem {entries : List Staged} {name : String} (statics : Table Klass)
    (hnotMem : name ∉ entries.map Staged.className) :
    (setStatuses entries statics).get? name = statics.get? name := by
  induction entries generalizing statics with
  | nil => rfl
  | cons e rest ih =>
    rw [List.map_cons, List.mem_cons, not_or] at hnotMem
    rw [setStatuses, ih _ hnotMem.2, Staged.get?_settle, if_neg hnotMem.1]

theorem get?_setStatuses_of_mem {entries : List Staged} {e : Staged} {k : Klass}
    {statics : Table Klass} (hnodup : (entries.map Staged.className).Nodup) (he : e ∈ entries)
    (hget : statics.get? e.className = some k) :
    (setStatuses entries statics).get? e.className = some { k with status := e.status } := by
  induction entries generalizing statics with
  | nil => cases he
  | cons d rest ih =>
    obtain ⟨hnotMem, hrest⟩ := List.nodup_cons.1 hnodup
    rw [setStatuses]
    rcases List.mem_cons.1 he with rfl | he
    · rw [get?_setStatuses_of_notMem _ hnotMem, Staged.get?_settle, if_pos rfl, hget]
      rfl
    · have hne : e.className ≠ d.className := fun heq => hnotMem (heq ▸ List.mem_map_of_mem he)
      exact ih hrest he (by rw [Staged.get?_settle, if_neg hne, hget])

/-- The frames of a thread after others have been pushed one after the other. -/
def pushFrames : List Frame → List Frame → List Frame
  | [], stack => stack
  | f :: rest, stack => pushFrames rest (f :: resumingHere stack)

/-- A frame that has not started resumes where it stands already. -/
theorem pushFrames_eq {frames : List Frame} (stack : List Frame)
    (hstart : ∀ f ∈ frames, f.returnPc = f.pc) :
    pushFrames frames stack =
      frames.reverse ++ if frames = [] then stack else resumingHere stack := by
  induction frames generalizing stack with
  | nil => rfl
  | cons f rest ih =>
    obtain ⟨hf, hrest⟩ := List.forall_mem_cons.1 hstart
    have hresume : { f with returnPc := f.pc } = f := by
      cases f
      cases hf
      rfl
    rw [pushFrames, ih _ hrest, resumingHere, hresume]
    simp

namespace Exec

variable {σ τ : Session} {className : String}

theorem apply_pushPrepared (frame : Frame) (σ : Session) :
    (pushPrepared frame 0).apply σ =
      (.ok (), { σ with
        state := { σ.state with stack := frame :: resumingHere σ.state.stack }
        events := .framePushed frame.signature :: σ.events }) := by
  rw [pushPrepared, apply_note_bind, apply_state_bind]
  dsimp only
  cases σ.state.stack <;> rfl

theorem apply_setKlassStatus {k : Klass} (status : KlassStatus)
    (hget : σ.state.statics.get? className = some k) :
    (setKlassStatus className status).apply σ =
      (.ok (), { σ with state := { σ.state with
        statics := σ.state.statics.insert className { k with status } } }) := by
  rw [setKlassStatus, apply_state_bind, State.findKlass, hget]
  rfl

theorem apply_commit_cons {e : Staged} {k : Klass} (created : List String) (frames : Nat)
    (rest : List Staged) (hget : σ.state.statics.get? e.className = some k) :
    (commit created frames (e :: rest)).apply σ =
      (commit created (frames + e.frame.toList.length) rest).apply
        { σ with
          state := { σ.state with
            stack := pushFrames e.frame.toList σ.state.stack
            statics := e.settle σ.state.statics }
          events := e.frame.toList.map (.framePushed ·.signature) ++ σ.events } := by
  rw [Staged.settle, hget]
  obtain ⟨name, _ | f⟩ := e
  · rw [commit, apply_bind, apply_mapError, apply_setKlassStatus .initialized hget]
    rfl
  · rw [commit, apply_bind, apply_mapError, apply_pushPrepared]
    dsimp only [Except.mapError]
    rw [apply_bind, apply_mapError, apply_setKlassStatus (σ := { σ with
      state := { σ.state with stack := f :: resumingHere σ.state.stack }
      events := _ }) .initializing hget]
    rfl

theorem apply_commit {entries : List Staged} (created : List String) (frames : Nat)
    (hklass : ∀ e ∈ entries, σ.state.hasKlass e.className) :
    ∃ events, (commit created frames entries).apply σ =
      (.ok (frames + (entries.filterMap Staged.frame).length),
        { σ with
          state := { σ.state with
            stack := pushFrames (entries.filterMap Staged.frame) σ.state.stack
            statics := setStatuses entries σ.state.statics }
          events }) := by
  induction entries generalizing σ frames with
  | nil => exact ⟨σ.events, rfl⟩
  | cons e rest ih =>
    obtain ⟨hfirst, hrest⟩ := List.forall_mem_cons.1 hklass
    obtain ⟨k, hget⟩ := State.hasKlass_iff.1 hfirst
    -- a class that gets its status keeps its entry, and so do the others
    have hklass' : ∀ d ∈ rest, (e.settle σ.state.statics).contains d.className := by
      intro d hd
      have := hrest d hd
      rw [State.hasKlass, Table.contains] at this
      rw [Table.contains, Staged.get?_settle]
      split <;> simpa using this
    obtain ⟨events, hrun⟩ := ih (σ := { σ with
      state := { σ.state with
        stack := pushFrames e.frame.toList σ.state.stack
        statics := e.settle σ.state.statics }
      events := _ }) (frames + e.frame.toList.length) hklass'
    refine ⟨events, ?_⟩
    rw [apply_commit_cons created frames rest hget, hrun]
    obtain ⟨name, _ | f⟩ := e
    · rfl
    · have hcount : frames + 1 + (rest.filterMap Staged.frame).length =
          frames + ((rest.filterMap Staged.frame).length + 1) := by omega
      simpa [pushFrames, setStatuses] using hcount

theorem apply_removeKlasses (names : List String) (σ : Session) :
    ∃ statics, (removeKlasses names).apply σ =
        (.ok (), { σ with state := { σ.state with statics } }) ∧
      ∀ name, statics.get? name = if name ∈ names then none else σ.state.statics.get? name := by
  induction names generalizing σ with
  | nil => exact ⟨σ.state.statics, rfl, fun _ => rfl⟩
  | cons first rest ih =>
    obtain ⟨statics, hremove, hget⟩ :=
      ih { σ with state := { σ.state with statics := σ.state.statics.erase first } }
    refine ⟨statics, hremove, fun name => ?_⟩
    rw [hget, Table.get?_erase]
    by_cases hfirst : name = first <;> by_cases hrest : name ∈ rest <;> simp [hfirst, hrest]

theorem rollBack_spec {a : Abandoned} (policy : InitializationPolicy) (className : String)
    (σ : Session) (hframes : a.frames = 0) :
    ∃ τ, (rollBack policy className a).apply σ = (.ok (), τ) ∧ σ.state.SameThread τ.state ∧
      τ.state.path = σ.state.path ∧
      ∀ name, τ.state.statics.get? name =
        if policy.removeKlasses ∧ name ∈ a.created then none else σ.state.statics.get? name := by
  obtain ⟨statics, hremove, hget⟩ := apply_removeKlasses a.created.reverse σ
  rw [rollBack, hframes, popFrames]
  by_cases hpolicy : policy.removeKlasses
  · rw [if_pos hpolicy, pure_bind, apply_bind, hremove]
    refine ⟨_, rfl, ⟨rfl, rfl, rfl⟩, rfl, fun name => ?_⟩
    simpa [hpolicy] using hget name
  · rw [if_neg hpolicy]
    exact ⟨_, rfl, ⟨rfl, rfl, rfl⟩, rfl, fun name => by simp [hpolicy]⟩

/-- How the initialization of a class can go. -/
inductive Course (policy : InitializationPolicy) (oracle : Oracle) (className : String)
    (σ : Session) : Except ExecutionError Initialization → Session → Prop
  | present (hhas : σ.state.hasKlass className) :
      Course policy oracle className σ (.ok .already) σ
  | undecided {τ : Session} {e : DecisionError} (hstate : τ.state = σ.state)
      (hverdict : (verdict policy oracle σ.state.hierarchy σ.queries
        ⟨className, σ.state.path⟩).1 = .error e) :
      Course policy oracle className σ (.error (.decision e)) τ
  | assumed {ρ τ : Session} (hstate : ρ.state = σ.state)
      (hassume : (assumeClassInitialized className).apply ρ = (.ok (), τ)) :
      Course policy oracle className σ (.ok .already) τ
  | assumptionFails {ρ π τ : Session} {e : Fault} {r : Except ExecutionError Initialization}
      (hstate : ρ.state = σ.state)
      (hassume : (assumeClassInitialized className).apply ρ = (.error e, π))
      (hfail : (failInitialization (creationFailure e)).apply π = (r, τ)) :
      Course policy oracle className σ r τ
  /-- The frames that the first pass has made are pushed. -/
  | staged {τ : Session} {t : State} {staged : List Staged} (hnew : ¬σ.state.hasKlass className)
      (hverdict : (verdict policy oracle σ.state.hierarchy σ.queries
        ⟨className, σ.state.path⟩).1 = .ok false)
      (hstaged : StagedFrom policy oracle σ.state (verdict policy oracle σ.state.hierarchy
        σ.queries ⟨className, σ.state.path⟩).2 [] className staged t)
      (hstate : τ.state = { t with
        stack := pushFrames (staged.reverse.filterMap Staged.frame) t.stack
        statics := setStatuses staged.reverse t.statics }) :
      Course policy oracle className σ
        (.ok (.created (staged.reverse.filterMap Staged.frame).length)) τ
  | stagingFails {ρ π ω τ : Session} {a : Abandoned} {r : Except ExecutionError Initialization}
      (hnew : ¬σ.state.hasKlass className)
      (hstage : (stage policy oracle [] (σ.state.hierarchy.initializationChain className)).apply ρ =
        (.error a, π))
      (hreaches : σ.state.Reaches [] className ρ.state)
      (hrollBack : (rollBack policy className a).apply π = (.ok (), ω))
      (hfail : (failInitialization a.cause).apply ω = (r, τ)) : Course policy oracle className σ r τ

theorem StagedFrom.hasKlass {asked : List Query} {before : List String} {staged : List Staged}
    {t : State} (hstaged : StagedFrom policy oracle s asked before className staged t)
    {e : Staged} (he : e ∈ staged) : t.hasKlass e.className := by
  obtain ⟨chain, assumed, -, hstate, rfl, -⟩ := hstaged
  rw [Grows.hasKlass_iff hstate]
  right
  simp only [List.map_append, List.map_map, List.mem_append, List.mem_map]
  exact .inl (.inr ⟨e, by simpa using he, rfl⟩)

/-- If the first pass has failed, the state has only grown and no frame has been pushed. -/
theorem stage_initializationChain_error {ρ : Session} {a : Abandoned}
    (h : (stage policy oracle [] (σ.state.hierarchy.initializationChain className)).apply ρ =
      (.error a, τ))
    (hreaches : σ.state.Reaches [] className ρ.state) (hnew : ¬σ.state.hasKlass className) :
    GrowsTo σ.state τ.state ∧ a.frames = 0 ∧
      (σ.state.hierarchy.Includes .bootstrap → Foreseen σ.state.hierarchy oracle a.cause) := by
  obtain ⟨rest, hrest⟩ := Hierarchy.walkUp_of_notMem (h := σ.state.hierarchy)
    (List.not_mem_nil (a := className))
  have hfirst : ∀ name ∈ (σ.state.hierarchy.initializationChain className).head?,
      ¬ρ.state.hasKlass name := by
    intro name hname
    rw [Hierarchy.initializationChain, hrest] at hname
    cases hname
    simpa [hreaches.hasKlass_iff, State.HasKlassWith] using hnew
  obtain ⟨hgrows, herror⟩ := stage_safely policy oracle _ hfirst h
  obtain ⟨hframes, hforeseen⟩ := herror a rfl
  rw [Grows.hierarchy hreaches] at hforeseen
  exact ⟨(Grows.growsTo hreaches).trans hgrows, hframes, hforeseen⟩

/-- The two passes over the classes without an entry, after the first of them has been assumed not
to be initialized. Only the first pass can fail. -/
theorem passes_outcome {ρ : Session} {r : Except Abandoned Nat}
    (h : (do
      let staged ← stage policy oracle [] (σ.state.hierarchy.initializationChain className)
      commit (staged.reverse.map Staged.className) 0 staged.reverse : Exec Abandoned Nat).apply ρ =
        (r, τ))
    (hreaches : σ.state.Reaches [] className ρ.state) (hnew : ¬σ.state.hasKlass className) :
    (∃ staged t, r = .ok (staged.reverse.filterMap Staged.frame).length ∧
      StagedFrom policy oracle σ.state ρ.queries [] className staged t ∧
      τ.state = { t with
        stack := pushFrames (staged.reverse.filterMap Staged.frame) t.stack
        statics := setStatuses staged.reverse t.statics }) ∨
    ∃ a, r = .error a ∧
      (stage policy oracle [] (σ.state.hierarchy.initializationChain className)).apply ρ =
        (.error a, τ) := by
  have habsent : ¬σ.state.HasKlassWith [] className := by simpa [State.HasKlassWith] using hnew
  rcases hstage : (stage policy oracle []
      (σ.state.hierarchy.initializationChain className)).apply ρ with ⟨a | staged, π⟩
  · rw [apply_bind, hstage] at h
    cases h
    exact .inr ⟨a, rfl, rfl⟩
  · have hstaged := stage_walkUp hreaches habsent (by simp) hstage
    have hklass : ∀ e ∈ staged.reverse, π.state.hasKlass e.className :=
      fun e he => hstaged.hasKlass (List.mem_reverse.1 he)
    obtain ⟨events, hcommit⟩ := apply_commit (staged.reverse.map Staged.className) 0 hklass
    rw [apply_bind, hstage] at h
    dsimp only at h
    rw [hcommit, Nat.zero_add] at h
    cases h
    exact .inl ⟨staged, π.state, rfl, hstaged, rfl⟩

theorem initializeClass_course {r : Except ExecutionError Initialization}
    (h : (initializeClass policy oracle className).apply σ = (r, τ)) :
    Course policy oracle className σ r τ := by
  rw [initializeClass, apply_state_bind] at h
  split at h
  · next hhas =>
    cases h
    exact .present hhas
  next hnew =>
  obtain ⟨events, hdecide⟩ := apply_decideInitialized policy oracle className σ
  rw [apply_bind, hdecide] at h
  cases hverdict : (verdict policy oracle σ.state.hierarchy σ.queries
      ⟨className, σ.state.path⟩).1 with
  | error e =>
    rw [hverdict] at h
    cases h
    exact .undecided rfl hverdict
  | ok initialized =>
    rw [hverdict] at h
    dsimp only [Except.mapError] at h
    cases initialized with
    | true =>
      rw [if_pos rfl, apply_note_bind, apply_bind, apply_attempt] at h
      rcases hassume : (assumeClassInitialized className).apply _ with ⟨e | _, ρ⟩
      · rw [hassume] at h
        exact .assumptionFails (by rfl) hassume h
      · rw [hassume] at h
        cases h
        exact .assumed (by rfl) hassume
    | false =>
      rw [if_neg Bool.false_ne_true, apply_note_bind, apply_bind, apply_mapError,
        assumeClassNotInitialized, apply_assume] at h
      dsimp only [Except.mapError] at h
      rw [apply_bind, apply_attempt] at h
      dsimp only at h
      have hreaches := Grows.assume σ.state (.notInitialized className)
      split at h
      · next frames hok =>
        rcases passes_outcome (Prod.ext hok rfl) hreaches hnew with
          ⟨staged, t, hframes, hstaged, hstate⟩ | ⟨a, ha, -⟩
        · cases hframes
          cases h
          exact .staged hnew hverdict hstaged hstate
        · cases ha
      · next a herror =>
        rcases passes_outcome (Prod.ext herror rfl) hreaches hnew with
          ⟨staged, t, hframes, -⟩ | ⟨a', ha, hstage⟩
        · cases hframes
        · cases ha
          obtain ⟨-, hframes, -⟩ := stage_initializationChain_error hstage hreaches hnew
          obtain ⟨ω, hrollBack, -⟩ := rollBack_spec policy className _ hframes
          rw [apply_bind, apply_mapError, hrollBack] at h
          exact .stagingFails hnew hstage hreaches hrollBack h

/-- How the initialization of a class can end, as far as its thread is concerned. -/
inductive Outcome (policy : InitializationPolicy) (oracle : Oracle) (className : String)
    (σ : Session) : Except ExecutionError Initialization → Session → Prop
  | already {τ : Session} (hthread : σ.state.SameThread τ.state) :
      Outcome policy oracle className σ (.ok .already) τ
  | created {τ : Session} {t : State} {staged : List Staged} (hnew : ¬σ.state.hasKlass className)
      (hverdict : (verdict policy oracle σ.state.hierarchy σ.queries
        ⟨className, σ.state.path⟩).1 = .ok false)
      (hstaged : StagedFrom policy oracle σ.state (verdict policy oracle σ.state.hierarchy
        σ.queries ⟨className, σ.state.path⟩).2 [] className staged t)
      (hstate : τ.state = { t with
        stack := pushFrames (staged.reverse.filterMap Staged.frame) t.stack
        statics := setStatuses staged.reverse t.statics }) :
      Outcome policy oracle className σ
        (.ok (.created (staged.reverse.filterMap Staged.frame).length)) τ
  | failed {ρ τ : Session} {cause : FailureCause} {r : Except ExecutionError Initialization}
      (hthread : σ.state.SameThread ρ.state)
      (hforeseen : σ.state.hierarchy.Includes .bootstrap → Foreseen σ.state.hierarchy oracle cause)
      (hfail : (failInitialization cause).apply ρ = (r, τ)) : Outcome policy oracle className σ r τ

theorem initializeClass_outcome {r : Except ExecutionError Initialization}
    (h : (initializeClass policy oracle className).apply σ = (r, τ)) :
    Outcome policy oracle className σ r τ := by
  cases initializeClass_course h with
  | present => exact .already ⟨rfl, rfl, rfl⟩
  | @undecided _ e hstate hverdict =>
    have hthread : σ.state.SameThread τ.state := hstate ▸ ⟨rfl, rfl, rfl⟩
    exact .failed hthread (fun _ => .undecided (verdict_error hverdict)) rfl
  | assumed hstate hassume =>
    obtain ⟨files, -, -, hgrows⟩ := assumeClassInitialized_ok hassume
    exact .already (hstate ▸ (Grows.growsTo hgrows).sameThread)
  | assumptionFails hstate hassume hfail =>
    obtain ⟨_, -, -, -, hgrows⟩ := assumeClassInitialized_grows hassume
    have hfault := assumeClassInitialized_error hassume
    rw [ValueFault, hstate] at hfault
    refine .failed (hstate ▸ (Grows.growsTo hgrows).sameThread) (fun hb => ?_) hfail
    exact (hfault hb).foreseen oracle
  | staged hnew hverdict hstaged hstate => exact .created hnew hverdict hstaged hstate
  | stagingFails hnew hstage hreaches hrollBack hfail =>
    obtain ⟨hgrows, hframes, hforeseen⟩ := stage_initializationChain_error hstage hreaches hnew
    obtain ⟨_, hrolledBack, hthread, -⟩ := rollBack_spec policy className _ hframes
    cases hrollBack.symm.trans hrolledBack
    exact .failed (hgrows.sameThread.trans hthread) hforeseen hfail

/-- The entry of a class cannot be created if its first constant is a text without a string. -/
theorem createKlass_of_text {c : ClassFile} {f : Field} {rest : List Field} {type : FieldType}
    {index : PoolIndex} {text : String} {e : Fault} (hnew : ¬σ.state.hasKlass className)
    (hget : σ.state.hierarchy.get? className = some c) (hroom : σ.state.heapLimit = none)
    (hfields : c.staticFields = f :: rest) (htype : FieldType.parse f.descriptor = .ok type)
    (hindex : f.constantValue = some index) (hliteral : c.pool.literal index = .ok (.string text))
    (hrun : ((internString text).apply σ).1 = .error e) :
    ((createKlass className).apply σ).1 = .error e := by
  have hvalue : ((initialValue c false f type).apply σ).1 = .error e := by
    rw [initialValue, hindex]
    dsimp only
    rw [literalValue, hliteral, apply_bind, apply_liftM]
    dsimp only [Except.mapError]
    rw [apply_bind, apply_of_fst hrun]
  have hcapacity : σ.state.checkCapacity = .ok () := by
    rw [State.checkCapacity, State.isFull, hroom]
    rfl
  rw [createKlass, apply_state_bind, if_neg hnew, Hierarchy.find, hget, apply_bind, apply_liftM]
  dsimp only [Except.mapError]
  rw [apply_bind, apply_liftM, hcapacity]
  dsimp only
  rw [apply_bind, hfields, initialValues, htype, apply_bind, apply_liftM]
  dsimp only [Except.mapError]
  rw [apply_bind, apply_of_fst hvalue]

/-- A fault that the program cannot see in the making of the first entry is one of the whole
initialization. -/
theorem initializeClass_of_createKlass {asked : List Query} {e : Fault}
    (hnew : ¬σ.state.hasKlass className)
    (hverdict : verdict policy oracle σ.state.hierarchy σ.queries ⟨className, σ.state.path⟩ =
      (.ok false, asked))
    (hcause : creationFailure e = .fault (.state e))
    (hcreate : ∀ path events, ((createKlass className).apply
      ⟨{ σ.state with path }, asked, σ.requests, events⟩).1 = .error e) :
    ((initializeClass policy oracle className).apply σ).1 = .error (.state e) := by
  obtain ⟨rest, hrest⟩ := Hierarchy.walkUp_of_notMem (h := σ.state.hierarchy)
    (List.not_mem_nil (a := className))
  obtain ⟨events, hdecide⟩ := apply_decideInitialized policy oracle className σ
  rw [hverdict] at hdecide
  rw [initializeClass, apply_state_bind, if_neg hnew, apply_bind, hdecide]
  dsimp only [Except.mapError]
  rw [if_neg Bool.false_ne_true, apply_note_bind, apply_bind, apply_mapError,
    assumeClassNotInitialized, apply_assume]
  dsimp only [Except.mapError]
  have hstage (ρ : Session) (hρ : ((createKlass className).apply ρ).1 = .error e) :
      ((stage policy oracle [] (σ.state.hierarchy.initializationChain className)).apply ρ).1 =
        .error ⟨.fault (.state e), [], 0⟩ := by
    rw [Hierarchy.initializationChain, hrest, stage_cons, apply_bind, apply_mapError, hρ]
    dsimp only [Except.mapError]
    rw [hcause]
  rw [apply_bind, apply_attempt, apply_bind, apply_of_fst (hstage _ (hcreate _ _))]
  dsimp only
  obtain ⟨τ, hrollBack, -⟩ := rollBack_spec policy className
    ((stage policy oracle [] (σ.state.hierarchy.initializationChain className)).apply _).2
    (a := ⟨.fault (.state e), [], 0⟩) rfl
  rw [apply_bind, apply_mapError, hrollBack]
  rfl

theorem failInitialization_ok {cause : FailureCause} {i : Initialization}
    (h : (failInitialization cause).apply σ = (.ok i, τ)) :
    ∃ t u, cause = .throws t ∧ i = .failed t u ∧ (createAndThrow t).apply σ = (.ok u, τ) := by
  cases cause with
  | throws t =>
    obtain ⟨u, ρ, hthrow, h⟩ := apply_bind_ok_iff.1 h
    cases h
    exact ⟨t, u, rfl, rfl, hthrow⟩
  | fault e => cases h

theorem failInitialization_error {cause : FailureCause} {e : ExecutionError}
    (h : (failInitialization cause).apply σ = (.error e, τ)) :
    (∃ t, cause = .throws t ∧ (createAndThrow t).apply σ = (.error e, τ)) ∨
      (cause = .fault e ∧ τ = σ) := by
  cases cause with
  | throws t =>
    rcases apply_bind_error_iff.1 h with hthrow | ⟨u, ρ, -, h⟩
    · exact .inl ⟨t, rfl, hthrow⟩
    · cases h
  | fault e =>
    cases h
    exact .inr ⟨rfl, rfl⟩

theorem forall₂_frames {entries : List Staged}
    (hframes : ∀ e ∈ entries, s.initializerFrame e.className = .ok e.frame) :
    List.Forall₂ (IsInitializerFrame s.hierarchy)
      ((entries.map Staged.className).filter s.hierarchy.declaresInitializer)
      (entries.filterMap Staged.frame) := by
  induction entries with
  | nil => exact .nil
  | cons e rest ih =>
    obtain ⟨hfirst, hrest⟩ := List.forall_mem_cons.1 hframes
    rcases State.initializerFrame_declares hfirst with
      ⟨hnone, hdeclares⟩ | ⟨f, hsome, hdeclares, hf⟩
    · simpa [hdeclares, hnone] using ih hrest
    · simpa [hdeclares, hsome] using ⟨hf, ih hrest⟩

theorem frames_start {entries : List Staged}
    (hframes : ∀ e ∈ entries, s.initializerFrame e.className = .ok e.frame) :
    ∀ f ∈ entries.filterMap Staged.frame, f.returnPc = f.pc := by
  intro f hf
  obtain ⟨e, he, hframe⟩ := List.mem_filterMap.1 hf
  rcases State.initializerFrame_declares (hframes e he) with ⟨hnone, -⟩ | ⟨g, hsome, -, hg⟩
  · rw [hnone] at hframe
    cases hframe
  · rw [hsome] at hframe
    cases hframe
    obtain ⟨c, m, code, -, -, -, -, rfl⟩ := hg
    rfl

theorem Staged.status_eq {e : Staged} (hframe : s.initializerFrame e.className = .ok e.frame) :
    e.status = s.hierarchy.startStatus e.className := by
  unfold Staged.status Hierarchy.startStatus
  rcases State.initializerFrame_declares hframe with ⟨hnone, hdeclares⟩ | ⟨f, hsome, hdeclares, -⟩
  · simp [hnone, hdeclares]
  · simp [hsome, hdeclares]

/-- **The cascade of an initialization.** If a class has to be initialized, then the classes of its
cascade get static entries and the frames of their class initialization methods are pushed, so that
the topmost superclass runs first; the frame that was current will run its instruction again. The
assumptions are that the cascade is initialized now, then that the superclasses it stops at were
initialized before, root first. -/
theorem initializeClass_cascade {frames : Nat}
    (h : (initializeClass policy oracle className).apply σ = (.ok (.created frames), τ)) :
    ¬σ.state.hasKlass className ∧
    (verdict policy oracle σ.state.hierarchy σ.queries ⟨className, σ.state.path⟩).1 = .ok false ∧
    ∃ chain assumed pushed,
      Cascade policy oracle σ.state (verdict policy oracle σ.state.hierarchy σ.queries
        ⟨className, σ.state.path⟩).2 [] className chain assumed ∧
      List.Forall₂ (IsInitializerFrame σ.state.hierarchy)
        (chain.filter σ.state.hierarchy.declaresInitializer) pushed ∧
      frames = pushed.length ∧
      τ.state.stack = pushed.reverse ++
        (if frames = 0 then σ.state.stack else resumingHere σ.state.stack) ∧
      (∀ name ∈ chain, ∃ k, τ.state.statics.get? name = some k ∧
        k.status = σ.state.hierarchy.startStatus name) ∧
      τ.state.path.clauses =
        σ.state.path.clauses ++ chain.map .notInitialized ++ assumed.map .initialized := by
  cases initializeClass_outcome h with
  | failed hthread hforeseen hfail =>
    obtain ⟨t, u, -, hfailed, -⟩ := failInitialization_ok hfail
    cases hfailed
  | @created _ t staged hnew hverdict hstaged hstate =>
    have hklass := fun e he => hstaged.hasKlass (e := e) he
    obtain ⟨chain, assumed, hcascade, hgrows, rfl, hframes⟩ := hstaged
    have hframes : ∀ e ∈ staged.reverse, σ.state.initializerFrame e.className = .ok e.frame :=
      fun e he => hframes e (List.mem_reverse.1 he)
    have hpushed := forall₂_frames hframes
    refine ⟨hnew, hverdict, _, assumed, _, hcascade, hpushed, rfl, ?_, ?_, ?_⟩
    · rw [hstate]
      change pushFrames _ t.stack = _
      rw [pushFrames_eq _ (frames_start hframes), Grows.stack hgrows]
      simp
    · intro name hname
      obtain ⟨e, he, rfl⟩ := List.mem_map.1 hname
      obtain ⟨k, hget⟩ := State.hasKlass_iff.1 (hklass e (List.mem_reverse.1 he))
      refine ⟨{ k with status := e.status }, ?_, Staged.status_eq (hframes e he)⟩
      rw [hstate]
      exact get?_setStatuses_of_mem (hcascade.nodup List.not_mem_nil).2 he hget
    · rw [hstate]
      exact (Grows.path hgrows).trans (List.append_assoc ..).symm

def rung (name : String) (superName : Option String) (initializes : Bool) : ClassFile :=
  ({ ClassOutline.publicClass name with
    superName
    methods := if initializes then [⟨0x0008, "<clinit>", "()V", some ⟨0, 0, [0xb1], []⟩⟩]
      else [] } : ClassOutline).build

/-- Four classes, each the superclass of the next, that are added to others. -/
def ladder (h : Hierarchy) : Hierarchy :=
  [rung "Root" none true, rung "Base" (some "Root") true, rung "Middle" (some "Base") false,
    rung "Leaf" (some "Middle") true].foldl Hierarchy.add h

def ladderSession (h : Hierarchy) : Session :=
  .start { State.create (ladder h) none .ample with
    stack := [⟨⟨"Leaf", "run", "()V"⟩, rung "Leaf" (some "Middle") true, [0xb8, 0, 1], [], 0, 9,
      [], []⟩] }

/-- The topmost of the four classes is taken to have been initialized before. Of the other three,
the first and the third have class initialization methods to run. -/
theorem initializeClass_ladder :
    ∃ τ, (initializeClass .standard (.scripted false (Table.ofList [("Root", true)]) [])
        "Leaf").apply (ladderSession .empty) = (.ok (.created 2), τ) ∧
      ∃ chain assumed pushed,
        Cascade .standard (.scripted false (Table.ofList [("Root", true)]) [])
          (ladderSession .empty).state [⟨"Leaf", .empty⟩] [] "Leaf" chain assumed ∧
        List.Forall₂ (IsInitializerFrame (ladder .empty))
          (chain.filter (ladder .empty).declaresInitializer) pushed ∧
        τ.state.stack = pushed.reverse ++ resumingHere (ladderSession .empty).state.stack := by
  have hrun : ((initializeClass .standard (.scripted false (Table.ofList [("Root", true)]) [])
      "Leaf").apply (ladderSession .empty)).1 = .ok (.created 2) := by decide +kernel
  have hverdict : (verdict .standard (.scripted false (Table.ofList [("Root", true)]) [])
      (ladderSession .empty).state.hierarchy (ladderSession .empty).queries
      ⟨"Leaf", (ladderSession .empty).state.path⟩).2 = [⟨"Leaf", .empty⟩] := by decide +kernel
  obtain ⟨τ, hτ⟩ : ∃ τ, (initializeClass .standard (.scripted false (Table.ofList [("Root", true)])
      []) "Leaf").apply (ladderSession .empty) = (.ok (.created 2), τ) := ⟨_, Prod.ext hrun rfl⟩
  obtain ⟨-, -, chain, assumed, pushed, hcascade, hpushed, -, hstack, -⟩ :=
    initializeClass_cascade hτ
  rw [hverdict] at hcascade
  exact ⟨τ, hτ, chain, assumed, pushed, hcascade, hpushed, hstack⟩

/-- **A failed initialization leaves no frame.** If the initialization of a class ends in a fault,
the thread is as it was. If it ends in an exception, the exception has been thrown on a thread as it
was, so that the frames that are left were there before. -/
theorem initializeClass_rollback {r : Except ExecutionError Initialization}
    (hclasses : σ.state.hierarchy.Includes .bootstrap)
    (h : (initializeClass policy oracle className).apply σ = (r, τ)) :
    (∀ e, r = .error e → τ.state.stack = σ.state.stack) ∧
    ∀ t u, r = .ok (.failed t u) →
      (∃ ρ, ρ.state.stack = σ.state.stack ∧ ρ.state.uncaught = σ.state.uncaught ∧
        (createAndThrow t).apply ρ = (.ok u, τ)) ∧
      LeftOf τ.state.stack σ.state.stack := by
  cases initializeClass_outcome h with
  | already => exact ⟨nofun, nofun⟩
  | created => exact ⟨nofun, nofun⟩
  | @failed ρ _ cause _ hthread _ hfail =>
    have hthrowables : ρ.state.hierarchy.HasThrowables :=
      hthread.hierarchy ▸ hclasses.hasThrowables
    constructor
    · rintro e rfl
      rw [← hthread.stack]
      rcases failInitialization_error hfail with ⟨t, -, hrun⟩ | ⟨-, rfl⟩
      · exact createAndThrow_error hthrowables hrun
      · rfl
    · rintro t u rfl
      obtain ⟨t', u', -, hr, hrun⟩ := failInitialization_ok hfail
      cases hr
      refine ⟨⟨ρ, hthread.stack, hthread.uncaught, hrun⟩, ?_⟩
      rw [← hthread.stack]
      refine createAndThrow_leftOf hthrowables (fun hnil => ?_) hrun
      obtain ⟨_, hempty, -⟩ := createAndThrow_of_nil t hthrowables hnil
      cases hrun.symm.trans hempty

/-- A class of which a static field has no type, and a subclass of it, below the four classes. -/
def crackedLadder (h : Hierarchy) : Hierarchy :=
  [({ ClassOutline.publicClass "Cracked" with
      superName := some "Leaf"
      fields := [⟨0x0008, "size", "?", none⟩] } : ClassOutline).build,
    rung "Twig" (some "Cracked") true].foldl Hierarchy.add (ladder h)

/-- The caller of the method that makes use of the subclass catches every exception. -/
def crackedSession (h : Hierarchy) : Session :=
  let caller := rung "Leaf" (some "Middle") true
  .start { State.create (crackedLadder h) none .ample with
    stack := [⟨⟨"Leaf", "run", "()V"⟩, caller, [0xb8, 0, 1], [], 0, 9, [], []⟩,
      ⟨⟨"Leaf", "main", "()V"⟩, caller, [0xb8, 0, 1, 0xb1], [⟨0, 3, 3, 0⟩], 0, 3, [],
        [.int 5]⟩] }

theorem ladder_includes : (ladder .bootstrap).Includes .bootstrap := by
  refine (Hierarchy.Includes.refl .bootstrap).foldl_add fun c hc => ?_
  apply Hierarchy.bootstrap_get?_of_notMem
  fin_cases hc <;> decide +kernel

theorem crackedLadder_includes : (crackedLadder .bootstrap).Includes .bootstrap := by
  refine ladder_includes.foldl_add fun c hc => ?_
  apply Hierarchy.bootstrap_get?_of_notMem
  fin_cases hc <;> decide +kernel

/-- In one run the oracle cannot decide about the third of the four classes, when two have static
entries. In the other a class is malformed when its subclass has got an entry, and the exception is
caught in the frame below the topmost. -/
theorem initializeClass_ladder_undecided :
    (ladder .bootstrap).Includes .bootstrap ∧
    (∃ τ, (initializeClass ⟨false, true⟩ (.scripted false ∅ ["Base"]) "Leaf").apply
        (ladderSession .bootstrap) = (.error (.decision ⟨"no answer for Base"⟩), τ) ∧
      τ.state.stack = (ladderSession .bootstrap).state.stack) ∧
    (crackedLadder .bootstrap).Includes .bootstrap ∧
    ∃ τ, (initializeClass .standard (.fixed false) "Twig").apply (crackedSession .bootstrap) =
        (.ok (.failed .verifyError (.caught 3)), τ) ∧
      (∃ ρ, ρ.state.stack = (crackedSession .bootstrap).state.stack ∧
        ρ.state.uncaught = (crackedSession .bootstrap).state.uncaught ∧
        (createAndThrow .verifyError).apply ρ = (.ok (.caught 3), τ)) ∧
      LeftOf τ.state.stack (crackedSession .bootstrap).state.stack := by
  have hundecided : ((initializeClass ⟨false, true⟩ (.scripted false ∅ ["Base"]) "Leaf").apply
      (ladderSession .bootstrap)).1 = .error (.decision ⟨"no answer for Base"⟩) := by
    decide +kernel
  have hcracked : ((initializeClass .standard (.fixed false) "Twig").apply
      (crackedSession .bootstrap)).1 = .ok (.failed .verifyError (.caught 3)) := by
    decide +kernel
  have hundone := initializeClass_rollback ladder_includes (apply_of_fst hundecided)
  have hthrown := initializeClass_rollback crackedLadder_includes (apply_of_fst hcracked)
  exact ⟨ladder_includes, ⟨_, apply_of_fst hundecided, hundone.1 _ rfl⟩, crackedLadder_includes,
    _, apply_of_fst hcracked, hthrown.2 _ _ rfl⟩

end Exec

end SymbolicBytecode

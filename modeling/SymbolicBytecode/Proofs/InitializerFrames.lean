import Mathlib
import SymbolicBytecode.Proofs.Frames
import SymbolicBytecode.Proofs.Runs

/-!
# Class initialization methods run once

The frame of a class initialization method is pushed only when its class, which was not initialized,
becomes one that is being initialized, and no class ever goes back. No other step pushes such a
frame, as long as no code refers to a class initialization method by its name. `Session.Orderly` is
what this comes to in one session, and `Session.Leads` from one session to a later one.
-/
namespace SymbolicBytecode

open Relation (ReflTransGen)
open Session (ValueChange ThrowChange HeapChange EntryChange InitializationChange CallChange
  EngineChange)

/-- No class refers to a class initialization method. -/
def Hierarchy.CallsNoInitializer (h : Hierarchy) : Prop :=
  ∀ name c, h.get? name = some c → ¬c.Mentions "<clinit>"

theorem ConstantPool.mem_of_utf8 {pool : ConstantPool} {index : PoolIndex} {text : String}
    (h : pool.utf8 index = .ok text) : .utf8 text ∈ pool.slots.toList := by
  unfold utf8 at h
  split at h
  · next hget =>
    cases h
    unfold get? at hget
    split at hget
    · cases hget
    · exact Array.mem_toList_iff.2 (Array.mem_of_getElem? hget)
  · cases h

/-- The name of a method that a class refers to is among its constants. -/
theorem ClassFile.Mentions.text_mem {c : ClassFile} {name : String} (h : c.Mentions name) :
    .utf8 name ∈ c.pool.slots.toList := by
  obtain ⟨index, member, hmember, -, rfl⟩ := h
  unfold ConstantPool.memberRef at hmember
  split at hmember
  · cases hmember
  split at hmember
  · next hname =>
    cases hmember
    unfold ConstantPool.nameAndType at hname
    split at hname
    · split at hname
      · next htext _ =>
        cases hname
        exact ConstantPool.mem_of_utf8 htext
      · cases hname
    · cases hname
  · cases hmember

/-- The number of frames of the class initialization method of a class that are on the stack. -/
def State.initializerFrames (s : State) (name : String) : Nat :=
  (s.stack.map Frame.signature).count (.initializer name)

/-- The number of frames of the class initialization method of a class that have been pushed. -/
def Session.initializerPushes (σ : Session) (name : String) : Nat :=
  σ.events.count (.framePushed (.initializer name))

/-- A frame of a method that is no class initialization method and cannot call one. -/
def Frame.IsOrdinary (f : Frame) : Prop :=
  ¬f.signature.isInitializer ∧ ¬f.owner.Mentions "<clinit>"

/-- What is fixed about a frame when it is made. -/
def Frame.site (f : Frame) : Signature × ClassFile := (f.signature, f.owner)

@[simp] theorem Frame.push_site (f : Frame) (v : Value) : (f.push v).site = f.site := rfl

theorem signatures_eq_sites (stack : List Frame) :
    stack.map Frame.signature = (stack.map Frame.site).map Prod.fst := by
  rw [List.map_map]
  rfl

theorem resuming_sites (offset : Nat) (stack : List Frame) :
    (resuming offset stack).map Frame.site = stack.map Frame.site := by
  cases stack <;> rfl

theorem resuming_signatures (offset : Nat) (stack : List Frame) :
    (resuming offset stack).map Frame.signature = stack.map Frame.signature := by
  rw [signatures_eq_sites, resuming_sites, ← signatures_eq_sites]

theorem exists_of_mem_resuming {offset : Nat} {stack : List Frame} {g : Frame}
    (hg : g ∈ resuming offset stack) :
    ∃ f ∈ stack, f.signature = g.signature ∧ f.owner = g.owner := by
  have hsite := List.mem_map_of_mem (f := Frame.site) hg
  rw [resuming_sites] at hsite
  obtain ⟨f, hf, hsite⟩ := List.mem_map.1 hsite
  exact ⟨f, hf, Prod.mk.inj hsite⟩

theorem IsInitializerFrame.site {h : Hierarchy} {className : String} {f : Frame}
    (hf : IsInitializerFrame h className f) :
    ∃ c, h.get? className = some c ∧ f.site = (.initializer className, c) := by
  obtain ⟨c, m, code, hget, -, -, -, rfl⟩ := hf
  exact ⟨c, hget, rfl⟩

namespace Session

/-- The second session comes from the first without pushing the frame of a class initialization
method and without changing the status of a class, unless it was not initialized. -/
structure Spares (σ τ : Session) : Prop where
  hierarchy : τ.state.hierarchy = σ.state.hierarchy
  sites : ∃ added : List Frame, (∀ f ∈ added, f.IsOrdinary) ∧
    (τ.state.stack.map Frame.site).Sublist ((added ++ σ.state.stack).map Frame.site)
  statuses : ∀ name k, σ.state.statics.get? name = some k → k.status ≠ .notInitialized →
    ∃ k', τ.state.statics.get? name = some k' ∧ k'.status = k.status
  pushes : ∀ name, τ.initializerPushes name = σ.initializerPushes name

/-- Each frame of a class initialization method is the only one for its class that was ever pushed,
and the class is being initialized. A class for which there was one does not get another. -/
structure Orderly (σ : Session) : Prop where
  classes : σ.state.hierarchy.CallsNoInitializer
  frames : ∀ f ∈ σ.state.stack, ¬f.owner.Mentions "<clinit>" ∧
    (f.signature.isInitializer → f.signature = .initializer f.signature.className)
  running : ∀ name, 0 < σ.state.initializerFrames name →
    ∃ k, σ.state.statics.get? name = some k ∧ k.status = .initializing
  pushed : ∀ name, σ.state.initializerFrames name ≤ σ.initializerPushes name
  once : ∀ name, σ.initializerPushes name ≤ 1
  begun : ∀ name, 0 < σ.initializerPushes name →
    ∃ k, σ.state.statics.get? name = some k ∧ k.status ≠ .notInitialized

/-- From the first session to the second, classes that are initialized stay so, and there are no
more new frames of a class initialization method than have been pushed. -/
structure Leads (σ τ : Session) : Prop where
  initialized : ∀ name k, σ.state.statics.get? name = some k → k.status = .initialized →
    ∃ k', τ.state.statics.get? name = some k' ∧ k'.status = .initialized
  frames : ∀ name, τ.state.initializerFrames name + σ.initializerPushes name ≤
    σ.state.initializerFrames name + τ.initializerPushes name

def Advances (σ τ : Session) : Prop := σ.Orderly → τ.Orderly ∧ σ.Leads τ

variable {σ τ ρ : Session} {step : Session → Session → Prop}

namespace Spares

theorem same (hhierarchy : τ.state.hierarchy = σ.state.hierarchy)
    (hstack : τ.state.stack = σ.state.stack) (hstatics : τ.state.statics = σ.state.statics)
    (hevents : τ.events = σ.events) : σ.Spares τ where
  hierarchy := hhierarchy
  sites := ⟨[], by simp, by simp [hstack]⟩
  statuses name k hget _ := ⟨k, hstatics ▸ hget, rfl⟩
  pushes name := by rw [initializerPushes, hevents, initializerPushes]

theorem refl (σ : Session) : σ.Spares σ := same rfl rfl rfl rfl

theorem trans (h : σ.Spares ρ) (h' : ρ.Spares τ) : σ.Spares τ where
  hierarchy := h'.hierarchy.trans h.hierarchy
  sites := by
    obtain ⟨added, hadded, hsites⟩ := h.sites
    obtain ⟨added', hadded', hsites'⟩ := h'.sites
    refine ⟨added' ++ added, List.forall_mem_append.2 ⟨hadded', hadded⟩, hsites'.trans ?_⟩
    have hadd := hsites.append_left (added'.map Frame.site)
    rwa [← List.map_append, ← List.map_append, ← List.append_assoc] at hadd
  statuses name k hget hstatus := by
    obtain ⟨k', hget', hstatus'⟩ := h.statuses name k hget hstatus
    obtain ⟨k'', hget'', hstatus''⟩ := h'.statuses name k' hget' (hstatus' ▸ hstatus)
    exact ⟨k'', hget'', hstatus''.trans hstatus'⟩
  pushes name := (h'.pushes name).trans (h.pushes name)

theorem of_steps (hstep : ∀ σ τ, step σ τ → σ.Spares τ) (hsteps : ReflTransGen step σ τ) :
    σ.Spares τ :=
  inv_of_steps σ.Spares (fun ρ τ hlast h => h.trans (hstep ρ τ hlast)) hsteps (refl σ)

theorem reports (σ : Session) (events : List Event)
    (hevents : ∀ e ∈ events, ∀ name, e ≠ .framePushed (.initializer name)) :
    σ.Spares { σ with events := events ++ σ.events } where
  hierarchy := rfl
  sites := ⟨[], by simp, by simp⟩
  statuses _ k hget _ := ⟨k, hget, rfl⟩
  pushes name := by
    have hnone : events.count (.framePushed (.initializer name)) = 0 :=
      List.count_eq_zero.2 fun hmem => hevents _ hmem name rfl
    rw [initializerPushes, List.count_append, hnone, Nat.zero_add, initializerPushes]

theorem remark (σ : Session) {e : Event} (hremark : e.IsRemark) :
    σ.Spares { σ with events := e :: σ.events } :=
  reports σ [e] (by simpa using fun name => hremark.2 (.initializer name))

theorem frames (σ : Session) {stack : List Frame} (uncaught : Option Reference)
    (added : List Frame) (hadded : ∀ f ∈ added, f.IsOrdinary)
    (hsites : (stack.map Frame.site).Sublist ((added ++ σ.state.stack).map Frame.site)) :
    σ.Spares { σ with state := { σ.state with stack, uncaught } } where
  hierarchy := rfl
  sites := ⟨added, hadded, hsites⟩
  statuses _ k hget _ := ⟨k, hget, rfl⟩
  pushes _ := rfl

theorem statics (σ : Session) {statics : Table Klass}
    (hstatuses : ∀ name k, σ.state.statics.get? name = some k → k.status ≠ .notInitialized →
      ∃ k', statics.get? name = some k' ∧ k'.status = k.status) :
    σ.Spares { σ with state := { σ.state with statics } } where
  hierarchy := rfl
  sites := ⟨[], by simp, by simp⟩
  statuses := hstatuses
  pushes _ := rfl

/-- An entry can be changed as long as the class is not initialized, or keeps its status. -/
theorem insertKlass (σ : Session) {name : String} {k : Klass}
    (hold : ∀ l, σ.state.statics.get? name = some l →
      l.status = .notInitialized ∨ k.status = l.status) :
    σ.Spares { σ with state := { σ.state with statics := σ.state.statics.insert name k } } := by
  refine statics σ fun other l hget hstatus => ?_
  rw [Table.get?_insert]
  split
  · next heq =>
    subst heq
    exact ⟨k, rfl, (hold l hget).resolve_left hstatus⟩
  · exact ⟨l, hget, rfl⟩

theorem frames_le (h : σ.Spares τ) (name : String) :
    τ.state.initializerFrames name ≤ σ.state.initializerFrames name := by
  obtain ⟨added, hadded, hsites⟩ := h.sites
  have hsignatures := (hsites.map Prod.fst).count_le (.initializer name)
  have hnone : (added.map Frame.signature).count (.initializer name) = 0 := by
    refine List.count_eq_zero.2 fun hmem => ?_
    obtain ⟨f, hf, hsignature⟩ := List.mem_map.1 hmem
    exact (hadded f hf).1 (by rw [hsignature]; rfl)
  rw [← signatures_eq_sites, ← signatures_eq_sites, List.map_append, List.count_append,
    hnone] at hsignatures
  simpa [State.initializerFrames] using hsignatures

theorem frame_cases (h : σ.Spares τ) {g : Frame} (hg : g ∈ τ.state.stack) :
    g.IsOrdinary ∨ ∃ f ∈ σ.state.stack, f.signature = g.signature ∧ f.owner = g.owner := by
  obtain ⟨added, hadded, hsites⟩ := h.sites
  obtain ⟨f, hf, hsite⟩ := List.mem_map.1 (hsites.subset (List.mem_map_of_mem hg))
  obtain ⟨hsignature, howner⟩ := Prod.mk.inj hsite
  rcases List.mem_append.1 hf with hnew | hold
  · left
    rw [Frame.IsOrdinary, ← hsignature, ← howner]
    exact hadded f hnew
  · exact .inr ⟨f, hold, hsignature, howner⟩

theorem advances (h : σ.Spares τ) : σ.Advances τ := by
  refine fun hσ => ⟨⟨?_, ?_, ?_, ?_, ?_, ?_⟩, ⟨?_, ?_⟩⟩
  · exact h.hierarchy ▸ hσ.classes
  · intro g hg
    rcases h.frame_cases hg with hordinary | ⟨f, hf, hsignature, howner⟩
    · exact ⟨hordinary.2, fun hinitializer => absurd hinitializer hordinary.1⟩
    · exact hsignature ▸ howner ▸ hσ.frames f hf
  · intro name hpos
    obtain ⟨k, hget, hstatus⟩ := hσ.running name (hpos.trans_le (h.frames_le name))
    obtain ⟨k', hget', hstatus'⟩ := h.statuses name k hget (by simp [hstatus])
    exact ⟨k', hget', hstatus'.trans hstatus⟩
  · intro name
    rw [h.pushes]
    exact (h.frames_le name).trans (hσ.pushed name)
  · exact fun name => h.pushes name ▸ hσ.once name
  · intro name hpos
    obtain ⟨k, hget, hstatus⟩ := hσ.begun name (h.pushes name ▸ hpos)
    obtain ⟨k', hget', hstatus'⟩ := h.statuses name k hget hstatus
    exact ⟨k', hget', hstatus' ▸ hstatus⟩
  · intro name k hget hstatus
    obtain ⟨k', hget', hstatus'⟩ := h.statuses name k hget (by simp [hstatus])
    exact ⟨k', hget', hstatus'.trans hstatus⟩
  · intro name
    rw [h.pushes]
    exact Nat.add_le_add_right (h.frames_le name) _

end Spares

theorem Leads.refl (σ : Session) : σ.Leads σ where
  initialized _ k hget hstatus := ⟨k, hget, hstatus⟩
  frames _ := Nat.le_refl _

theorem Leads.trans (h : σ.Leads ρ) (h' : ρ.Leads τ) : σ.Leads τ where
  initialized name k hget hstatus := by
    obtain ⟨k', hget', hstatus'⟩ := h.initialized name k hget hstatus
    exact h'.initialized name k' hget' hstatus'
  frames name := by
    have hfirst := h.frames name
    have hsecond := h'.frames name
    omega

theorem Advances.refl (σ : Session) : σ.Advances σ := fun hσ => ⟨hσ, .refl σ⟩

theorem Advances.trans (h : σ.Advances ρ) (h' : ρ.Advances τ) : σ.Advances τ := by
  intro hσ
  obtain ⟨hρ, hleads⟩ := h hσ
  obtain ⟨hτ, hleads'⟩ := h' hρ
  exact ⟨hτ, hleads.trans hleads'⟩

theorem Advances.of_steps (hstep : ∀ σ τ, step σ τ → σ.Advances τ)
    (hsteps : ReflTransGen step σ τ) : σ.Advances τ :=
  inv_of_steps σ.Advances (fun ρ τ hlast h => h.trans (hstep ρ τ hlast)) hsteps (.refl σ)

end Session

namespace Exec

variable {α : Type} {σ τ : Session}

theorem updateFrame_spares {g : Frame → Except Fault (α × Frame)}
    (hg : ∀ f r, g f = .ok r → r.2.site = f.site) (σ : Session) :
    σ.Spares ((updateFrame g).apply σ).2 := by
  rcases updateFrame_cases g σ with ⟨e, hrun⟩ | ⟨f, rest, r, hstack, hr, hrun⟩
  · rw [hrun]
    exact .refl σ
  · rw [hrun]
    refine .frames σ _ [] (by simp) ?_
    simp [hstack, hg f r hr]

theorem pushOperand_spares (v : Value) (σ : Session) :
    σ.Spares ((pushOperand v).apply σ).2 := by
  refine updateFrame_spares (fun f r hr => ?_) σ
  cases hr
  rfl

theorem pop_site {f : Frame} {count : Nat} {r : List Value × Frame} (h : f.pop count = .ok r) :
    r.2.site = f.site := by
  rw [Frame.pop] at h
  split at h
  · cases h
    rfl
  · cases h

theorem patch_site {f g : Frame} {pc : Nat} {opcode : UInt8} (h : f.patch pc opcode = .ok g) :
    g.site = f.site := by
  rw [Frame.patch_ok h]
  rfl

theorem setPc_site {f g : Frame} {pc : Nat} (h : f.setPc pc = .ok g) : g.site = f.site := by
  rw [Frame.setPc] at h
  split at h
  · cases h
    rfl
  · cases h

theorem pushPrepared_spares {frame : Frame} (hframe : frame.IsOrdinary) (offset : Nat)
    (σ : Session) : σ.Spares ((pushPrepared frame offset).apply σ).2 := by
  have hevent : ∀ name, Event.framePushed frame.signature ≠ .framePushed (.initializer name) := by
    intro name heq
    exact hframe.1 (by rw [Event.framePushed.inj heq]; rfl)
  have hpushed : σ.Spares { σ with state := { σ.state with
      stack := frame :: resuming offset σ.state.stack } } := by
    refine .frames σ _ [frame] (by simpa using hframe) ?_
    simp [resuming_sites]
  rw [apply_pushPrepared_resuming]
  exact hpushed.trans (.reports _ [_] (by simpa using hevent))

theorem pushFrame_spares {signature : Signature} (isRoot : Bool) (offset : Nat)
    (args : List Value) (hsignature : ¬signature.isInitializer)
    (hclasses : σ.state.hierarchy.CallsNoInitializer) :
    σ.Spares ((pushFrame signature isRoot offset args).apply σ).2 := by
  rcases pushFrame_cases signature isRoot offset args σ with
    ⟨e, hrun⟩ | ⟨c, m, frame, hget, -, hcreate, hrun⟩
  · rw [hrun]
    exact .refl σ
  · have hbegins := Frame.create_begins hcreate
    have hframe : frame.IsOrdinary := by
      rw [Frame.IsOrdinary, hbegins.signature_eq, hbegins.owner_eq]
      exact ⟨hsignature, hclasses _ c hget⟩
    rw [hrun]
    split
    · refine .frames σ _ [frame] (by simpa using hframe) ?_
      simp
    · exact pushPrepared_spares hframe offset σ

theorem popFrame_spares (σ : Session) : σ.Spares (popFrame.apply σ).2 := by
  rw [popFrame, apply_state_bind]
  split
  · exact .refl σ
  · next frame rest hstack =>
    refine .frames σ _ [] (by simp) ?_
    simp [hstack]

theorem throwFrom_spares (ref : Reference) (search : HandlerSearch) (σ : Session) :
    σ.Spares ((throwFrom ref search).apply σ).2 := by
  rcases throwFrom_unwinds ref search σ with ⟨e, hrun⟩ | ⟨thrown, uncaught, -, -, hrun⟩
  · rw [hrun]
    exact .refl σ
  · rw [hrun]
    have hleft : σ.Spares { σ with state := { σ.state with
        stack := (unwind σ.state.hierarchy thrown ref search σ.state.stack).stack
        uncaught } } := by
      refine .frames σ _ [] (by simp) ?_
      rcases unwind_stack σ.state.hierarchy thrown ref search σ.state.stack with
        hnone | ⟨f, g, below, hsuffix, hstack, hg⟩
      · simp [hnone]
      · have hsite : g.site = f.site := by
          rcases hg with rfl | ⟨pc, rfl⟩ <;> rfl
        have hbelow := hsuffix.sublist.map Frame.site
        rwa [List.map_cons, ← hsite, ← List.map_cons, ← hstack] at hbelow
    refine hleft.trans (.reports _ _ fun e he name => ?_)
    exact (unwind_events _ _ _ _ _ e (List.mem_reverse.1 he)).2 _

theorem raise_spares (t : Throwable) (σ : Session) : σ.Spares ((raise t).apply σ).2 := by
  have hreport : σ.Spares { σ with events := .throwing t :: σ.events } :=
    .reports σ [.throwing t] (by simp)
  rcases raise_cases t σ with hrun | ⟨o, -, hrun⟩
  · rwa [hrun]
  · rw [hrun]
    have hmade : Session.Spares { σ with events := .throwing t :: σ.events }
        (Session.adding { σ with events := .throwing t :: σ.events } o) :=
      .same rfl rfl rfl rfl
    exact hreport.trans (hmade.trans (pushOperand_spares _ _))

theorem completeFrame_sites {f : Frame} {rest : List Frame} (result : Option Value)
    (hstack : σ.state.stack = f :: rest) :
    ∃ stack, stack.map Frame.site = rest.map Frame.site ∧
      ((completeFrame result).apply σ).2 = { σ with state := { σ.state with
        stack
        statics := f.signature.finish σ.state.statics } } := by
  cases rest with
  | nil =>
    rw [apply_completeFrame_root result hstack]
    exact ⟨[], rfl, rfl⟩
  | cons caller rest =>
    rw [apply_completeFrame result hstack]
    dsimp only
    cases hnext : caller.setPc caller.returnPc with
    | error e => exact ⟨caller :: rest, rfl, rfl⟩
    | ok next =>
      refine ⟨_, ?_, rfl⟩
      have hsite := setPc_site hnext
      cases result <;> simpa using hsite

theorem callMethod_spares {count : Nat} {signature : Signature} {offset : Nat}
    (hsignature : ¬signature.isInitializer) (hclasses : σ.state.hierarchy.CallsNoInitializer) :
    σ.Spares ((callMethod count signature offset).apply σ).2 := by
  have hpop : σ.Spares ((popOperands count).apply σ).2 :=
    updateFrame_spares (fun f r hr => pop_site hr) σ
  rw [callMethod, apply_bind]
  rcases hrun : (popOperands count).apply σ with ⟨e | args, ρ⟩
  · rwa [hrun] at hpop
  · rw [hrun] at hpop
    exact hpop.trans (pushFrame_spares false offset args hsignature (hpop.hierarchy ▸ hclasses))

end Exec

theorem Session.ValueChange.spares {σ τ : Session} (h : ValueChange σ τ) : σ.Spares τ := by
  cases h with
  | symbol => exact .same rfl rfl rfl rfl
  | intern hrun =>
    obtain ⟨ρ, hinterns, rfl⟩ := Exec.internString_interns hrun
    cases hinterns <;> exact .same rfl rfl rfl rfl

theorem Exec.Enters.spares {symbolic : Bool} {name : String}
    {enter : Table Value → Session → Session} {σ τ : Session} (h : Enters symbolic name enter σ τ)
    (henter : ∀ values (ρ : Session), ρ.state.statics.get? name = none →
      ρ.Spares (enter values ρ)) :
    σ.Spares τ := by
  cases h with
  | present => exact .refl σ
  | refused _ hsteps => exact .of_steps (fun _ _ => ValueChange.spares) hsteps
  | entered hnew _ _ hvalues =>
    have hsame := ((initialValues_makesValues _ _ _ _).allocates hvalues).statics
    have hsteps := (initialValues_madeOf _ _ _ _).of_apply hvalues
    have hspares := Session.Spares.of_steps (fun _ _ => ValueChange.spares) hsteps
    refine hspares.trans (henter _ _ ?_)
    rw [hsame]
    exact State.not_hasKlass_iff.1 hnew

theorem Exec.createKlass_spares (name : String) (σ : Session) :
    σ.Spares ((createKlass name).apply σ).2 := by
  refine (createKlass_enters name σ).spares fun values ρ hnew => ?_
  have hinsert : ρ.Spares { ρ with state := { ρ.state with
      statics := ρ.state.statics.insert name ⟨.notInitialized, values⟩ } } :=
    .insertKlass ρ (by simp [hnew])
  exact hinsert.trans (.reports _ [_] (by simp))

namespace Session

variable {given : Value → Prop} {policy : InitializationPolicy} {σ τ : Session}

theorem HeapChange.spares (h : HeapChange given σ τ) : σ.Spares τ := by
  cases h <;> exact .same rfl rfl rfl rfl

theorem ThrowChange.spares (h : ThrowChange σ τ) : σ.Spares τ := by
  cases h with
  | report hremark => exact .remark σ hremark
  | raise t => exact Exec.raise_spares t σ
  | unwind ref search => exact Exec.throwFrom_spares ref search σ

theorem EntryChange.spares (h : EntryChange σ τ) : σ.Spares τ := by
  cases h with
  | report hremark => exact .remark σ hremark
  | ask => exact .same rfl rfl rfl rfl
  | @declare name =>
    have hassume : σ.Spares (σ.assuming (.notInitialized name)) := .same rfl rfl rfl rfl
    exact hassume.trans (Exec.createKlass_spares name _)
  | @presume c hget =>
    refine (Exec.assumeOneInitialized_enters hget).spares fun values ρ hnew => ?_
    have hinsert : ρ.Spares { ρ with state := { ρ.state with
        statics := ρ.state.statics.insert c.name ⟨.initialized, values⟩ } } :=
      .insertKlass ρ (by simp [hnew])
    exact hinsert.trans (.same rfl rfl rfl rfl)

/-- The session after a class has become one that is being initialized and the frame of its class
initialization method has been pushed. -/
def starting (σ : Session) (name : String) (k : Klass) (f : Frame) : Session :=
  { σ with
    state := { σ.state with
      stack := f :: resumingHere σ.state.stack
      statics := σ.state.statics.insert name { k with status := .initializing } }
    events := .framePushed f.signature :: σ.events }

section Starting

variable {name : String} {k : Klass} {f : Frame}

theorem starting_frames (hf : f.signature = .initializer name) (other : String) :
    (σ.starting name k f).state.initializerFrames other =
      σ.state.initializerFrames other + if name = other then 1 else 0 := by
  simp [starting, State.initializerFrames, List.count_cons, resumingHere_eq, resuming_signatures,
    hf, Signature.initializer]

theorem starting_pushes (hf : f.signature = .initializer name) (other : String) :
    (σ.starting name k f).initializerPushes other =
      σ.initializerPushes other + if name = other then 1 else 0 := by
  simp [starting, initializerPushes, List.count_cons, hf, Signature.initializer]

theorem starting_statics (other : String) :
    (σ.starting name k f).state.statics.get? other =
      if other = name then some { k with status := .initializing }
      else σ.state.statics.get? other :=
  Table.get?_insert _ _ _ _

theorem Orderly.starting (hσ : σ.Orderly) (hnone : σ.initializerPushes name = 0)
    (hframe : IsInitializerFrame σ.state.hierarchy name f) : (σ.starting name k f).Orderly := by
  obtain ⟨c, hclass, hsite⟩ := hframe.site
  obtain ⟨hsignature, howner⟩ := Prod.mk.inj hsite
  refine ⟨hσ.classes, fun g hg => ?_, fun other hpos => ?_, fun other => ?_, fun other => ?_,
    fun other hpos => ?_⟩
  · rcases List.mem_cons.1 hg with rfl | hg
    · rw [howner, hsignature]
      exact ⟨hσ.classes name c hclass, fun _ => rfl⟩
    · rw [resumingHere_eq] at hg
      obtain ⟨f', hf', hsame, hsame'⟩ := exists_of_mem_resuming hg
      exact hsame ▸ hsame' ▸ hσ.frames f' hf'
  · rw [starting_frames hsignature] at hpos
    rw [starting_statics]
    split
    · exact ⟨_, rfl, rfl⟩
    · next hne =>
      rw [if_neg (Ne.symm hne)] at hpos
      exact hσ.running other hpos
  · rw [starting_frames hsignature, starting_pushes hsignature]
    exact Nat.add_le_add_right (hσ.pushed other) _
  · rw [starting_pushes hsignature]
    split
    · next heq => rw [← heq, hnone]
    · exact hσ.once other
  · rw [starting_pushes hsignature] at hpos
    rw [starting_statics]
    split
    · exact ⟨_, rfl, by simp⟩
    · next hne =>
      rw [if_neg (Ne.symm hne)] at hpos
      exact hσ.begun other hpos

/-- The class was not initialized, so there has been no frame of its class initialization method. -/
theorem starting_advances (hget : σ.state.statics.get? name = some k)
    (hstatus : k.status = .notInitialized)
    (hframe : IsInitializerFrame σ.state.hierarchy name f) :
    σ.Advances (σ.starting name k f) := by
  intro hσ
  have hnone : σ.initializerPushes name = 0 := by
    by_contra hne
    obtain ⟨l, hl, hbegun⟩ := hσ.begun name (Nat.pos_of_ne_zero hne)
    cases hget.symm.trans hl
    exact hbegun hstatus
  obtain ⟨c, -, hsite⟩ := hframe.site
  have hsignature := (Prod.mk.inj hsite).1
  refine ⟨hσ.starting hnone hframe, fun other l hl hinitialized => ?_, fun other => ?_⟩
  · have hne : other ≠ name := by
      rintro rfl
      cases hget.symm.trans hl
      cases hstatus.symm.trans hinitialized
    exact ⟨l, by rw [starting_statics, if_neg hne, hl], hinitialized⟩
  · rw [starting_frames hsignature, starting_pushes hsignature]
    omega

end Starting

theorem InitializationChange.advances (h : InitializationChange policy σ τ) : σ.Advances τ := by
  cases h with
  | entry h => exact h.spares.advances
  | throw h => exact h.spares.advances
  | start hget hstatus hframe => exact starting_advances hget hstatus hframe
  | @settle name k hget hstatus =>
    refine (Spares.insertKlass σ fun l hl => ?_).advances
    cases hget.symm.trans hl
    exact .inl hstatus
  | @withdraw name _ hstatus =>
    refine (Spares.statics σ fun other l hget hother => ?_).advances
    rw [Table.get?_erase]
    split
    · next heq =>
      subst heq
      exact absurd (hstatus l hget) hother
    · exact ⟨l, hget, rfl⟩

theorem CallChange.advances (h : CallChange .standard σ τ) : σ.Advances τ := by
  intro hσ
  cases h with
  | throw h => exact h.spares.advances hσ
  | patch pc opcode =>
    refine (Exec.updateFrame_spares (fun f r hr => ?_) σ).advances hσ
    obtain ⟨g, hpatch, hr⟩ := except_bind_ok_iff.1 hr
    cases hr
    exact Exec.patch_site hpatch
  | call count signature offset hmentions =>
    obtain ⟨f, rest, hstack, hmention⟩ := hmentions rfl
    have hsignature : ¬signature.isInitializer := by
      -- the class of the current frame would have to refer to the method by its name
      intro hinitializer
      have hname : signature.name = "<clinit>" := of_decide_eq_true hinitializer
      have hf : f ∈ σ.state.stack := hstack ▸ List.mem_cons_self
      exact (hσ.frames f hf).1 (hname ▸ hmention)
    exact (Exec.callMethod_spares hsignature hσ.classes).advances hσ

theorem EngineChange.advances (h : EngineChange policy .standard σ τ) : σ.Advances τ := by
  cases h with
  | initialization h => exact h.advances
  | call h => exact h.advances

theorem finish_advances {method : Signature}
    (hgone : method.isInitializer → σ.state.initializerFrames method.className = 0) :
    σ.Advances { σ with state := { σ.state with
      statics := method.finish σ.state.statics } } := by
  intro hσ
  refine ⟨⟨hσ.classes, hσ.frames, fun name hpos => ?_, hσ.pushed, hσ.once, fun name hpos => ?_⟩,
    ⟨fun name k hget hstatus => ?_, fun name => Nat.le_refl _⟩⟩
  · obtain ⟨k, hget, hstatus⟩ := hσ.running name hpos
    refine ⟨k, ?_, hstatus⟩
    rw [Signature.get?_finish, if_neg, hget]
    rintro ⟨hmethod, rfl⟩
    exact absurd (hgone hmethod) (Nat.pos_iff_ne_zero.1 hpos)
  · obtain ⟨k, hget, hstatus⟩ := hσ.begun name hpos
    rw [Signature.get?_finish, hget]
    split
    · exact ⟨_, rfl, by simp⟩
    · exact ⟨k, rfl, hstatus⟩
  · exact method.finish_keeps hget hstatus

/-- When a class initialization method returns, no frame of it is left. -/
theorem completeFrame_advances (result : Option Value) (σ : Session) :
    σ.Advances ((Exec.completeFrame result).apply σ).2 := by
  cases hstack : σ.state.stack with
  | nil =>
    rw [Exec.apply_completeFrame_nil result hstack]
    exact .refl σ
  | cons f rest =>
    intro hσ
    obtain ⟨stack, hsites, hrun⟩ := Exec.completeFrame_sites result hstack
    have hpop : σ.Spares { σ with state := { σ.state with stack } } := by
      refine .frames σ _ [] (by simp) ?_
      simp [hsites, hstack]
    obtain ⟨hρ, hleads⟩ := hpop.advances hσ
    have hgone : f.signature.isInitializer →
        State.initializerFrames { σ.state with stack } f.signature.className = 0 := by
      -- no more than one was pushed, and it is the one that returns
      intro hinitializer
      have hsignature := (hσ.frames f (hstack ▸ List.mem_cons_self)).2 hinitializer
      have hrest : stack.map Frame.signature = rest.map Frame.signature := by
        rw [signatures_eq_sites, hsites, ← signatures_eq_sites]
      have hpushed := hσ.pushed f.signature.className
      have honce := hσ.once f.signature.className
      rw [State.initializerFrames, hstack, List.map_cons, ← hsignature,
        List.count_cons_self] at hpushed
      rw [State.initializerFrames, ← hsignature, hrest]
      omega
    obtain ⟨hτ, hleads'⟩ := finish_advances hgone hρ
    rw [hrun]
    exact ⟨hτ, hleads.trans hleads'⟩

end Session

namespace Operation

variable {engine : Engine} {op : Operation} {σ τ : Session}

/-- The operation neither takes an entry back nor changes a status by itself, it keeps the method
and the class of a frame that it changes, and it does not push the frame of a class initialization
method, or of a class that calls one, by itself. -/
def RespectsInitializers : Operation → Prop
  | removeKlass _ | setKlassStatus _ _ => False
  | updateFrame g => ∀ f r, g f = .ok r → r.2.signature = f.signature ∧ r.2.owner = f.owner
  | pushPrepared frame _ => frame.IsOrdinary
  | pushFrame signature _ _ _ => ¬signature.isInitializer
  | _ => True

theorem elementary_advances (hop : op.isElementary) (hrespects : op.RespectsInitializers)
    (σ : Session) : σ.Advances (op.after engine σ) := by
  cases op with
  | removeKlass | setKlassStatus => exact hrespects.elim
  | createKlass className => exact (Exec.createKlass_spares className σ).advances
  | assumeClassNotInitialized className =>
    have hassume : σ.Spares (σ.assuming (.notInitialized className)) := .same rfl rfl rfl rfl
    exact hassume.advances
  | setStatic className field v =>
    rw [after, Exec.setStatic, Exec.apply_state_bind, State.findKlass]
    split
    · next k hget =>
      change σ.Advances (Exec.apply (if _ then _ else _) _).2
      split
      · refine (Session.Spares.insertKlass σ fun l hl => ?_).advances
        cases hget.symm.trans hl
        exact .inr rfl
      · exact .refl σ
    · exact .refl σ
  | updateFrame g =>
    refine (Exec.updateFrame_spares (fun f r hr => ?_) σ).advances
    obtain ⟨hsignature, howner⟩ := hrespects f r hr
    exact Prod.ext hsignature howner
  | popOperands count =>
    exact (Exec.updateFrame_spares (fun f r hr => Exec.pop_site hr) σ).advances
  | pushPrepared frame returnOffset =>
    exact (Exec.pushPrepared_spares hrespects returnOffset σ).advances
  | pushFrame signature isRoot returnOffset args =>
    intro hσ
    exact (Exec.pushFrame_spares isRoot returnOffset args hrespects hσ.classes).advances hσ
  | popFrame => exact (Exec.popFrame_spares σ).advances
  | completeFrame result => exact Session.completeFrame_advances result σ
  | _ => cases hop

theorem Move.advances (h : op.Move engine σ τ) (hstrategies : engine.strategies = .standard)
    (hrespects : op.RespectsInitializers) : σ.Advances τ := by
  cases h with
  | elementary hop => exact elementary_advances hop hrespects σ
  | @exception className o =>
    have hmade : σ.Spares (σ.adding o) := .same rfl rfl rfl rfl
    exact hmade.advances
  | heap h => exact h.spares.advances
  | value h => exact h.spares.advances
  | engine h =>
    rw [hstrategies] at h
    exact h.advances

theorem after_advances (hstrategies : engine.strategies = .standard)
    (hrespects : op.RespectsInitializers) (σ : Session) : σ.Advances (op.after engine σ) :=
  .of_steps (fun _ _ hmove => hmove.advances hstrategies hrespects) (after_moves engine op σ)

end Operation

namespace Session

theorem run_advances {ops : List (Engine × Operation)} (σ : Session)
    (hops : ∀ entry ∈ ops, entry.1.strategies = .standard ∧ entry.2.RespectsInitializers) :
    σ.Advances (σ.run ops) := by
  induction ops generalizing σ with
  | nil => exact .refl σ
  | cons entry rest ih =>
    obtain ⟨⟨hstrategies, hrespects⟩, hrest⟩ := List.forall_mem_cons.1 hops
    exact (Operation.after_advances hstrategies hrespects σ).trans (ih _ hrest)

theorem start_orderly {engine : Engine} {h : Hierarchy} {root : Signature} {args : List Value}
    {s : State} (hclasses : h.CallsNoInitializer) (hroot : ¬root.isInitializer)
    (hs : engine.initialState h root args = .ok s) : (start s).Orderly := by
  have hempty : (start (.create h engine.heapLimit engine.host)).Orderly :=
    { classes := hclasses
      frames := by simp [start, State.create]
      running := by simp [start, State.create, State.initializerFrames]
      pushed := by simp [start, State.create, State.initializerFrames]
      once := by simp [start, initializerPushes]
      begun := by simp [start, initializerPushes] }
  have hspares : (start (.create h engine.heapLimit engine.host)).Spares
      ((Exec.pushFrame root true 0 args).apply
        (start (.create h engine.heapLimit engine.host))).2 :=
    Exec.pushFrame_spares true 0 args hroot hclasses
  rw [Engine.initialState] at hs
  rcases Exec.pushFrame_cases root true 0 args (start (.create h engine.heapLimit engine.host)) with
    ⟨e, hrun⟩ | ⟨c, m, frame, -, -, -, hrun⟩
  · rw [hrun] at hs
    cases hs
  · rw [hrun] at hs hspares
    cases hs
    exact (hspares.advances hempty).1

/-- **A class initialization method runs at most once.** Let no class refer to a class
initialization method, and let an execution begin with another method. Then at most one frame is
ever pushed for the class initialization method of a class, and as long as it is on the stack, the
class is being initialized. A class that is initialized stays so, and a frame that has left does not
come back. -/
theorem run_initializer_once {engine : Engine} {h : Hierarchy} {root : Signature}
    {args : List Value} {s : State} {ops later : List (Engine × Operation)} {σ τ : Session}
    (hclasses : h.CallsNoInitializer) (hroot : ¬root.isInitializer)
    (hs : engine.initialState h root args = .ok s)
    (hops : ∀ entry ∈ ops ++ later,
      entry.1.strategies = .standard ∧ entry.2.RespectsInitializers)
    (hσ : (start s).run ops = σ) (hτ : σ.run later = τ) (name : String) :
    τ.initializerPushes name ≤ 1 ∧
    (τ.state.initializerFrames name + σ.initializerPushes name ≤
      σ.state.initializerFrames name + τ.initializerPushes name) ∧
    (∀ f ∈ σ.state.stack, f.signature = .initializer name →
      ∃ k, σ.state.statics.get? name = some k ∧ k.status = .initializing) ∧
    (∀ k, σ.state.statics.get? name = some k → k.status = .initialized →
      ∃ k', τ.state.statics.get? name = some k' ∧ k'.status = .initialized) ∧
    (0 < σ.initializerPushes name → σ.state.initializerFrames name = 0 →
      τ.state.initializerFrames name = 0) := by
  obtain ⟨hfirst, hsecond⟩ := List.forall_mem_append.1 hops
  obtain ⟨hσorderly, -⟩ := run_advances (start s) hfirst (start_orderly hclasses hroot hs)
  rw [hσ] at hσorderly
  obtain ⟨hτorderly, hleads⟩ := run_advances σ hsecond hσorderly
  rw [hτ] at hτorderly hleads
  have hframes := hleads.frames name
  have honce := hτorderly.once name
  refine ⟨honce, hframes, fun f hf hsignature => ?_, hleads.initialized name, fun hpos hgone => ?_⟩
  · refine hσorderly.running name (List.count_pos_iff.2 ?_)
    exact hsignature ▸ List.mem_map_of_mem hf
  · omega

/-- A class that extends the lowest of the four, with a static method. -/
def tip : ClassFile :=
  ({ ClassOutline.publicClass "Tip" with
    superName := some "Leaf"
    methods := [⟨0x0008, "<clinit>", "()V", some ⟨0, 0, [0xb1], []⟩⟩,
      ⟨0x0009, "go", "()V", some ⟨0, 0, [0xb1], []⟩⟩] } : ClassOutline).build

/-- A class that calls the static method. -/
def tipCaller : ClassFile :=
  ({ ClassOutline.publicClass "Caller" with
    constants := [.methodRef ⟨"Tip", "go", "()V"⟩]
    methods := [⟨0x0009, "main", "()V", some ⟨0, 0, [0xb8, 0, 6, 0xb1], []⟩⟩] } :
      ClassOutline).build

def tipClasses : Hierarchy := ((Exec.ladder .empty).add tip).add tipCaller

def tipFrame : Frame :=
  ⟨⟨"Caller", "main", "()V"⟩, tipCaller, [0xb8, 0, 6, 0xb1], [], 0, 0, [], []⟩

def tipState : State := { State.create tipClasses none .ample with stack := [tipFrame] }

def tipEngine : Engine := ⟨none, .ample, ⟨false, false⟩, .fixed false, .standard⟩

theorem tipClasses_callsNoInitializer : tipClasses.CallsNoInitializer := by
  intro name c hget hmentions
  have hentry := (Table.mem_entries_iff _ name c).2 hget
  have htexts : ∀ entry ∈ tipClasses.classes.entries,
      .utf8 "<clinit>" ∉ entry.2.pool.slots.toList := by
    decide +kernel
  exact htexts (name, c) hentry hmentions.text_mem

/-- The four class initialization methods return one after the other, and the call is made again. -/
def tipOperations : List (Engine × Operation) :=
  List.replicate 4 (tipEngine, .completeFrame none) ++ [(tipEngine, .step)]

theorem tip_initializer_once :
    tipClasses.CallsNoInitializer ∧
    tipEngine.initialState tipClasses ⟨"Caller", "main", "()V"⟩ [] = .ok tipState ∧
    ∃ σ τ, (start tipState).run [(tipEngine, .step)] = σ ∧ σ.run tipOperations = τ ∧
      σ.state.initializerFrames "Tip" = 1 ∧ σ.initializerPushes "Tip" = 1 ∧
      τ.state.initializerFrames "Tip" = 0 ∧ τ.initializerPushes "Tip" ≤ 1 := by
  have hs : tipEngine.initialState tipClasses ⟨"Caller", "main", "()V"⟩ [] = .ok tipState :=
    tipEngine.initialState_of_frame (c := tipCaller)
      (m := ⟨0x0009, "main", "()V", some ⟨0, 0, [0xb8, 0, 6, 0xb1], []⟩⟩) (by decide +kernel)
      (by decide +kernel) (by decide +kernel)
  have hops : ∀ entry ∈ [(tipEngine, .step)] ++ tipOperations,
      entry.1.strategies = .standard ∧ entry.2.RespectsInitializers := by
    simp [tipOperations, tipEngine, Operation.RespectsInitializers]
  have hfacts : ((start tipState).run [(tipEngine, .step)]).state.initializerFrames "Tip" = 1 ∧
      ((start tipState).run [(tipEngine, .step)]).initializerPushes "Tip" = 1 ∧
      (((start tipState).run [(tipEngine, .step)]).run
        tipOperations).state.initializerFrames "Tip" = 0 := by
    decide +kernel
  have honce := (run_initializer_once tipClasses_callsNoInitializer (by decide) hs hops rfl rfl
    "Tip").1
  exact ⟨tipClasses_callsNoInitializer, hs, _, _, rfl, rfl, hfacts.1, hfacts.2.1, hfacts.2.2,
    honce⟩

end Session

end SymbolicBytecode

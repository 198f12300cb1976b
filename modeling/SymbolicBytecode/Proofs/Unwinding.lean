import Mathlib
import SymbolicBytecode.Execution.Throwing
import SymbolicBytecode.Proofs.Allocation

/-!
# What an exception does to a thread

An exception leaves the frames above the first one that handles it. The search is strict at first; a
malformed frame turns the exception into a verification error, whose search starts from that frame,
passes over everything malformed and therefore ends. So throwing an exception of the machine always
comes to an end that the program can see.
-/
namespace SymbolicBytecode

/-- The ways in which a frame can turn out to be malformed: an index or a position that its class or
its code does not have. -/
inductive CodeFault : Fault → Prop
  | index (e : InvalidIndex) : CodeFault (.invalidIndex e)
  | counter (method : Signature) (pc : Nat) : CodeFault (.invalidProgramCounter method pc)

namespace Frame

variable {f : Frame} {h : Hierarchy} {thrown : String} {search : HandlerSearch}

theorem firstHandler_error {entries : List Handler} {e : Fault}
    (hfound : f.firstHandler h thrown search entries = .error e) :
    search = .strict ∧ CodeFault e := by
  fun_induction firstHandler f h thrown search entries <;> grind [CodeFault, invalidPc]

theorem firstHandler_some {entries : List Handler} {pc : Nat}
    (hfound : f.firstHandler h thrown search entries = .ok (some pc)) : pc < f.code.length := by
  fun_induction firstHandler f h thrown search entries <;> grind

theorem findHandler_error {e : Fault} (hfound : f.findHandler h thrown search = .error e) :
    search = .strict ∧ CodeFault e := by
  unfold findHandler at hfound
  split at hfound
  · exact firstHandler_error hfound
  · split at hfound
    · cases hfound
      exact ⟨rfl, .counter _ _⟩
    · cases hfound

theorem findHandler_some {pc : Nat} (hfound : f.findHandler h thrown search = .ok (some pc)) :
    pc < f.code.length := by
  unfold findHandler at hfound
  split at hfound
  · exact firstHandler_some hfound
  · split at hfound <;> cases hfound

/-- Neither the operands of a frame nor its other handlers have a part in the search through some
handlers. -/
theorem firstHandler_with (f : Frame) (handlers : List Handler) (operands : List Value)
    (h : Hierarchy) (thrown : String) (search : HandlerSearch) (entries : List Handler) :
    ({ f with handlers, operands } : Frame).firstHandler h thrown search entries =
      f.firstHandler h thrown search entries := by
  induction entries with
  | nil => rfl
  | cons entry rest ih =>
    unfold firstHandler
    rw [ih]
    rfl

/-- The operands of a frame have no part in the search for a handler. -/
theorem findHandler_operands (f : Frame) (operands : List Value) (h : Hierarchy)
    (thrown : String) (search : HandlerSearch) :
    ({ f with operands } : Frame).findHandler h thrown search =
      f.findHandler h thrown search := by
  unfold findHandler
  rw [f.firstHandler_with f.handlers operands]
  rfl

theorem findHandler_push (f : Frame) (v : Value) (h : Hierarchy) (thrown : String)
    (search : HandlerSearch) :
    (f.push v).findHandler h thrown search = f.findHandler h thrown search :=
  f.findHandler_operands _ h thrown search

end Frame

section Unwinds

variable {h : Hierarchy} {thrown : String} {ref : Reference} {search : HandlerSearch}

/-- What becomes of the frames that an exception goes through, current frame first. -/
inductive Unwinds (h : Hierarchy) (thrown : String) (ref : Reference) (search : HandlerSearch) :
    List Frame → Unwinding → List Frame → Prop
  | uncaught {frames : List Frame}
      (hleft : ∀ g ∈ frames, g.findHandler h thrown search = .ok none) :
      Unwinds h thrown ref search frames .uncaught []
  /-- The first frame that handles it goes on there, with the exception as its only operand. -/
  | caught (left : List Frame) {f : Frame} {below : List Frame} {pc : Nat}
      (hleft : ∀ g ∈ left, g.findHandler h thrown search = .ok none)
      (hfound : f.findHandler h thrown search = .ok (some pc)) (hpc : pc < f.code.length) :
      Unwinds h thrown ref search (left ++ f :: below) (.caught pc)
        ({ f with pc, operands := [.reference ref] } :: below)

/-- Of the frames that an exception goes through, `f` is the first that is malformed, and no frame
above it handles the exception. -/
def MeetsMalformed (h : Hierarchy) (thrown : String) (frames : List Frame) (f : Frame)
    (below : List Frame) : Prop :=
  (∃ left, frames = left ++ f :: below ∧
    ∀ g ∈ left, g.findHandler h thrown .strict = .ok none) ∧
  ∃ e, f.findHandler h thrown .strict = .error e

theorem Unwinds.cons {f : Frame} {frames stack : List Frame} {u : Unwinding}
    (hnone : f.findHandler h thrown search = .ok none)
    (hrest : Unwinds h thrown ref search frames u stack) :
    Unwinds h thrown ref search (f :: frames) u stack := by
  cases hrest with
  | uncaught hleft => exact .uncaught (List.forall_mem_cons.2 ⟨hnone, hleft⟩)
  | @caught left g below pc hleft hfound hpc =>
    exact .caught (f :: left) (List.forall_mem_cons.2 ⟨hnone, hleft⟩) hfound hpc

theorem MeetsMalformed.cons {f g : Frame} {frames below : List Frame}
    (hnone : f.findHandler h thrown .strict = .ok none)
    (hrest : MeetsMalformed h thrown frames g below) :
    MeetsMalformed h thrown (f :: frames) g below := by
  obtain ⟨⟨left, rfl, hleft⟩, hbad⟩ := hrest
  exact ⟨⟨f :: left, rfl, List.forall_mem_cons.2 ⟨hnone, hleft⟩⟩, hbad⟩

/-- How a search ends: with a handler, with no frame left, or, if it is strict, at a malformed
frame. -/
theorem unwind_cases (h : Hierarchy) (thrown : String) (ref : Reference) (search : HandlerSearch)
    (frames : List Frame) :
    (∃ u, (unwind h thrown ref search frames).outcome = .ok u ∧
      Unwinds h thrown ref search frames u (unwind h thrown ref search frames).stack) ∨
    ∃ e f below, (unwind h thrown ref search frames).outcome = .error e ∧
      (unwind h thrown ref search frames).stack = f :: below ∧ search = .strict ∧
      CodeFault e ∧ MeetsMalformed h thrown frames f below := by
  induction frames with
  | nil => exact .inl ⟨.uncaught, rfl, .uncaught (by simp)⟩
  | cons f rest ih =>
    rw [unwind]
    split
    · next e he =>
      obtain ⟨rfl, hfault⟩ := Frame.findHandler_error he
      exact .inr ⟨e, f, rest, rfl, rfl, rfl, hfault, ⟨[], rfl, by simp⟩, e, he⟩
    · next pc hfound =>
      exact .inl ⟨.caught pc, rfl,
        .caught [] (by simp) hfound (Frame.findHandler_some hfound)⟩
    · next hnone =>
      rcases ih with ⟨u, hu, hunwinds⟩ | ⟨e, g, below, he, hstack, rfl, hfault, hbad⟩
      · exact .inl ⟨u, hu, hunwinds.cons hnone⟩
      · exact .inr ⟨e, g, below, he, hstack, rfl, hfault, hbad.cons hnone⟩

theorem Unwinds.of_eq_nil {frames stack : List Frame} {u : Unwinding}
    (hunwinds : Unwinds h thrown ref search frames u stack) (hframes : frames = []) :
    u = .uncaught ∧ stack = [] := by
  cases hunwinds with
  | uncaught => exact ⟨rfl, rfl⟩
  | caught => simp at hframes

theorem Unwinds.of_cons {f : Frame} {rest stack : List Frame} {u : Unwinding}
    (hunwinds : Unwinds h thrown ref search (f :: rest) u stack) :
    (f.findHandler h thrown search = .ok none ∧ Unwinds h thrown ref search rest u stack) ∨
    ∃ pc, f.findHandler h thrown search = .ok (some pc) ∧ pc < f.code.length ∧ u = .caught pc ∧
      stack = { f with pc, operands := [.reference ref] } :: rest := by
  generalize hframes : f :: rest = frames at hunwinds
  cases hunwinds with
  | uncaught hleft =>
    subst hframes
    obtain ⟨hf, hrest⟩ := List.forall_mem_cons.1 hleft
    exact .inl ⟨hf, .uncaught hrest⟩
  | @caught left g below pc hleft hfound hpc =>
    rcases List.cons_eq_append_iff.1 hframes with ⟨rfl, hhead⟩ | ⟨left, rfl, rfl⟩
    · obtain ⟨rfl, rfl⟩ := List.cons.inj hhead
      exact .inr ⟨pc, hfound, hpc, rfl, rfl⟩
    · obtain ⟨hf, hrest⟩ := List.forall_mem_cons.1 hleft
      exact .inl ⟨hf, .caught left hrest hfound hpc⟩

theorem MeetsMalformed.of_cons {f g : Frame} {rest below : List Frame}
    (hmeets : MeetsMalformed h thrown (f :: rest) g below) :
    (f.findHandler h thrown .strict = .ok none ∧ MeetsMalformed h thrown rest g below) ∨
    (∃ e, f.findHandler h thrown .strict = .error e) ∧ g = f ∧ below = rest := by
  obtain ⟨⟨left, hframes, hleft⟩, hbad⟩ := hmeets
  rcases List.cons_eq_append_iff.1 hframes with ⟨rfl, hhead⟩ | ⟨left, rfl, rfl⟩
  · obtain ⟨rfl, rfl⟩ := List.cons.inj hhead
    exact .inr ⟨hbad, rfl, rfl⟩
  · obtain ⟨hf, hrest⟩ := List.forall_mem_cons.1 hleft
    exact .inl ⟨hf, ⟨left, rfl, hrest⟩, hbad⟩

theorem Unwinds.of_push {f : Frame} {v : Value} {rest stack : List Frame} {u : Unwinding}
    (hunwinds : Unwinds h thrown ref search (f.push v :: rest) u stack) :
    Unwinds h thrown ref search (f :: rest) u stack := by
  rcases hunwinds.of_cons with ⟨hnone, hrest⟩ | ⟨pc, hfound, hpc, rfl, rfl⟩
  · exact .cons (f.findHandler_push v h thrown search ▸ hnone) hrest
  · rw [Frame.findHandler_push] at hfound
    exact .caught [] (by simp) hfound hpc

theorem MeetsMalformed.of_push {f g : Frame} {v : Value} {rest below : List Frame}
    (hmeets : MeetsMalformed h thrown (f.push v :: rest) g below) :
    ∃ g', MeetsMalformed h thrown (f :: rest) g' below ∧ (g = g' ∨ g = g'.push v) := by
  rcases hmeets.of_cons with ⟨hnone, hrest⟩ | ⟨⟨e, he⟩, rfl, rfl⟩
  · exact ⟨g, .cons (f.findHandler_push v h thrown .strict ▸ hnone) hrest, .inl rfl⟩
  · rw [Frame.findHandler_push] at he
    exact ⟨f, ⟨⟨[], rfl, by simp⟩, e, he⟩, .inr rfl⟩

end Unwinds

def State.unwound (s : State) (ref : Reference) : Unwinding → List Frame → State
  | .caught _, stack => { s with stack }
  | .uncaught, stack => { s with stack, uncaught := some ref }

/-- The state in which a new object has been made and pushed on the operand stack of the current
frame `f`. -/
def State.raising (s : State) (o : HeapObject) (f : Frame) (rest : List Frame) : State :=
  { s with
    heap := s.heap.add o
    stack := f.push (.reference (.concrete s.heap.size)) :: rest }

/-- An object is added to a heap and thrown from the first of some frames. Of the state, only the
heap, the frames and the exception that ended the thread are different afterwards. -/
def Throws (s : State) (heap : Heap) (o : HeapObject) (search : HandlerSearch)
    (frames : List Frame) (u : Unwinding) (t : State) : Prop :=
  ∃ stack, Unwinds s.hierarchy o.className (.concrete heap.size) search frames u stack ∧
    t = { s with heap := heap.add o }.unwound (.concrete heap.size) u stack

/-- A verification error passes over what is malformed; every other exception is turned into one
there. -/
def Throwable.search (t : Throwable) : HandlerSearch :=
  if t = .verifyError then .lenient else .strict

/-- What is thrown in place of a new exception of the machine: the object, the heap it is added to,
the frames it is thrown from and how they are searched. -/
inductive Launch (s : State) (t : Throwable) :
    HeapObject → Heap → List Frame → HandlerSearch → Prop
  | itself {o : HeapObject} (hblank : s.hierarchy.Blank t.className o) :
      Launch s t o s.heap s.stack t.search
  /-- A frame was malformed; the exception made first stays in the heap. -/
  | converted {first o : HeapObject} {f : Frame} {below : List Frame} (hother : t ≠ .verifyError)
      (hfirst : s.hierarchy.Blank t.className first)
      (hmeets : MeetsMalformed s.hierarchy t.className s.stack f below)
      (hblank : s.hierarchy.Blank Throwable.verifyError.className o) :
      Launch s t o (s.heap.add first) (f :: below) .lenient

theorem Hierarchy.Blank.className_eq {h : Hierarchy} {className : String} {o : HeapObject}
    (hblank : h.Blank className o) : o.className = className := by
  obtain ⟨fields, rfl, -⟩ := hblank
  rfl

theorem Throws.of_with {s t : State} {heap heap' : Heap} {stack frames : List Frame}
    {o : HeapObject} {search : HandlerSearch} {u : Unwinding}
    (hthrows : Throws { s with heap := heap', stack } heap o search frames u t) :
    Throws s heap o search frames u t := by
  obtain ⟨left, hunwinds, rfl⟩ := hthrows
  refine ⟨left, hunwinds, ?_⟩
  cases u <;> rfl

theorem Throws.of_push {s t : State} {heap : Heap} {f : Frame} {v : Value} {rest : List Frame}
    {o : HeapObject} {search : HandlerSearch} {u : Unwinding}
    (hthrows : Throws s heap o search (f.push v :: rest) u t) :
    Throws s heap o search (f :: rest) u t := by
  obtain ⟨left, hunwinds, ht⟩ := hthrows
  exact ⟨left, hunwinds.of_push, ht⟩

namespace Exec

variable {σ τ : Session}

theorem apply_throwFrom {ref : Reference} {thrown : String} (search : HandlerSearch)
    (hclass : σ.state.classOf ref = .ok thrown) (hstack : σ.state.stack ≠ []) :
    (throwFrom ref search).apply σ =
      let result := unwind σ.state.hierarchy thrown ref search σ.state.stack
      (result.outcome,
        { σ with
          state := match result.outcome with
            | .ok u => σ.state.unwound ref u result.stack
            | .error _ => { σ.state with stack := result.stack }
          events := result.events.reverse ++ σ.events }) := by
  rw [throwFrom, apply_state_bind, apply_bind, apply_liftM, hclass]
  dsimp only
  rw [if_neg (by simpa using hstack)]
  cases (unwind σ.state.hierarchy thrown ref search σ.state.stack).outcome with
  | error e => rfl
  | ok u => cases u <;> rfl

theorem throwFrom_cases {p : Nat} {o : HeapObject} (search : HandlerSearch)
    (hobject : σ.state.heap.get? p = some o) (hstack : σ.state.stack ≠ []) :
    (∃ u stack events,
      Unwinds σ.state.hierarchy o.className (.concrete p) search σ.state.stack u stack ∧
      (throwFrom (.concrete p) search).apply σ =
        (.ok u, ⟨σ.state.unwound (.concrete p) u stack, σ.queries, σ.requests, events⟩)) ∨
    ∃ e f below events, search = .strict ∧ CodeFault e ∧
      MeetsMalformed σ.state.hierarchy o.className σ.state.stack f below ∧
      (throwFrom (.concrete p) search).apply σ =
        (.error e, ⟨{ σ.state with stack := f :: below }, σ.queries, σ.requests, events⟩) := by
  have hclass : σ.state.classOf (.concrete p) = .ok o.className := by
    simp [State.classOf, State.object, State.objectPosition, State.resolve?, Heap.find, hobject,
      bind, Except.bind, pure, Except.pure]
  rw [apply_throwFrom search hclass hstack]
  dsimp only
  rcases unwind_cases σ.state.hierarchy o.className (.concrete p) search σ.state.stack with
    ⟨u, hu, hunwinds⟩ | ⟨e, f, below, he, hleft, hstrict, hfault, hmeets⟩
  · rw [hu]
    exact .inl ⟨u, _, _, hunwinds, rfl⟩
  · rw [he, hleft]
    exact .inr ⟨e, f, below, _, hstrict, hfault, hmeets, rfl⟩

theorem raise_spec (t : Throwable) {f : Frame} {rest : List Frame}
    (hclasses : σ.state.hierarchy.HasThrowables) (hstack : σ.state.stack = f :: rest) :
    ∃ o, σ.state.hierarchy.Blank t.className o ∧ (raise t).apply σ =
      (.ok (.concrete σ.state.heap.size),
        { σ with state := σ.state.raising o f rest, events := .throwing t :: σ.events }) := by
  obtain ⟨fields, hfields⟩ := hclasses.instanceFields t
  refine ⟨_, Hierarchy.Makes.blank ⟨fields, hfields, rfl⟩, ?_⟩
  rw [raise, apply_note_bind, apply_bind,
    apply_createThrowable (σ := { σ with events := .throwing t :: σ.events }) hfields]
  dsimp only
  rw [apply_bind, pushOperand, updateFrame, apply_state_bind]
  dsimp only [Session.adding]
  rw [hstack]
  rfl

theorem throwFrom_raised (s : State) (o : HeapObject) (f : Frame) (rest : List Frame)
    (search : HandlerSearch) (queries : List Query) (requests : List LiteralRequest)
    (events : List Event) :
    let σ : Session := ⟨s.raising o f rest, queries, requests, events⟩
    (∃ u t events', Throws s s.heap o search (f :: rest) u t ∧
      (throwFrom (.concrete s.heap.size) search).apply σ =
        (.ok u, ⟨t, queries, requests, events'⟩)) ∨
    ∃ e g g' below events', search = .strict ∧ CodeFault e ∧
      MeetsMalformed s.hierarchy o.className (f :: rest) g below ∧
      (g' = g ∨ g' = g.push (.reference (.concrete s.heap.size))) ∧
      (throwFrom (.concrete s.heap.size) search).apply σ =
        (.error e, ⟨{ s with heap := s.heap.add o, stack := g' :: below }, queries, requests,
          events'⟩) := by
  intro σ
  have hobject : (s.heap.add o).get? s.heap.size = some o := by
    rw [Heap.get?_add, if_pos rfl]
  have hstack : (s.raising o f rest).stack ≠ [] := List.cons_ne_nil _ _
  rcases throwFrom_cases (σ := σ) search hobject hstack with
    ⟨u, stack, events', hunwinds, hrun⟩ | ⟨e, g', below, events', hstrict, hfault, hmeets, hrun⟩
  · refine .inl ⟨u, _, events', ⟨stack, hunwinds.of_push, rfl⟩, ?_⟩
    rw [hrun]
    cases u <;> rfl
  · obtain ⟨g, hg, hg'⟩ := hmeets.of_push
    exact .inr ⟨e, g, g', below, events', hstrict, hfault, hg, hg', hrun⟩

theorem throwVerifyError_spec {f : Frame} {rest : List Frame}
    (hclasses : σ.state.hierarchy.HasThrowables) (hstack : σ.state.stack = f :: rest) :
    ∃ u o t events, σ.state.hierarchy.Blank Throwable.verifyError.className o ∧
      Throws σ.state σ.state.heap o .lenient (f :: rest) u t ∧
      throwVerifyError.apply σ = (.ok u, ⟨t, σ.queries, σ.requests, events⟩) := by
  obtain ⟨o, hblank, hraise⟩ := raise_spec .verifyError hclasses hstack
  rcases throwFrom_raised σ.state o f rest .lenient σ.queries σ.requests
      (.throwing .verifyError :: σ.events) with
    ⟨u, t, events, hthrows, hrun⟩ | ⟨_, _, _, _, _, hstrict, _⟩
  · refine ⟨u, o, t, events, hblank, hthrows, ?_⟩
    rw [throwVerifyError, apply_mapError, apply_bind, hraise]
    dsimp only
    rw [hrun]
    rfl
  · cases hstrict

theorem throwObject_of_ok {ref : Reference} {u : Unwinding}
    (hrun : (throwFrom ref .strict).apply σ = (.ok u, τ)) :
    (throwObject ref).apply σ = (.ok u, τ) := by
  rw [throwObject, apply_bind, apply_attempt, hrun]
  rfl

theorem throwObject_of_error {ref : Reference} {e : Fault} (hfault : CodeFault e)
    (hrun : (throwFrom ref .strict).apply σ = (.error e, τ)) :
    (throwObject ref).apply σ =
      throwVerifyError.apply { τ with events := .malformedHandler e :: τ.events } := by
  rw [throwObject, apply_bind, apply_attempt, hrun]
  cases hfault <;> rfl

/-- On a thread with frames the machine can throw whatever it has to. -/
theorem createAndThrow_spec (t : Throwable) (hclasses : σ.state.hierarchy.HasThrowables)
    (hstack : σ.state.stack ≠ []) :
    ∃ u τ o heap frames search, (createAndThrow t).apply σ = (.ok u, τ) ∧
      τ.queries = σ.queries ∧ Launch σ.state t o heap frames search ∧
      Throws σ.state heap o search frames u τ.state := by
  obtain ⟨f, rest, hframes⟩ := List.exists_cons_of_ne_nil hstack
  unfold createAndThrow
  by_cases hverify : t = .verifyError
  · subst hverify
    obtain ⟨u, o, s, events, hblank, hthrows, hrun⟩ := throwVerifyError_spec hclasses hframes
    rw [← hframes] at hthrows
    exact ⟨u, _, o, _, _, _, hrun, rfl, .itself hblank, hthrows⟩
  rw [if_neg hverify]
  obtain ⟨first, hfirst, hraise⟩ := raise_spec t hclasses hframes
  rw [apply_bind, apply_mapError, hraise]
  dsimp only [Except.mapError]
  rcases throwFrom_raised σ.state first f rest .strict σ.queries σ.requests
      (.throwing t :: σ.events) with
    ⟨u, s, events, hthrows, hrun⟩ | ⟨e, g, g', below, events, -, hfault, hmeets, hg', hrun⟩
  · have hsearch : t.search = .strict := if_neg hverify
    rw [← hframes, ← hsearch] at hthrows
    exact ⟨u, _, first, _, _, _, throwObject_of_ok hrun, rfl, .itself hfirst, hthrows⟩
  · obtain ⟨u, o, s, events', hblank, hthrows, hverified⟩ := throwVerifyError_spec
      (σ := ⟨{ σ.state with heap := σ.state.heap.add first, stack := g' :: below }, σ.queries,
        σ.requests, .malformedHandler e :: events⟩) hclasses rfl
    rw [hfirst.className_eq, ← hframes] at hmeets
    -- the malformed frame may be the one that still has the first exception as an operand
    have hthrown : Throws σ.state (σ.state.heap.add first) o .lenient (g :: below) u s := by
      rcases hg' with rfl | rfl
      · exact hthrows.of_with
      · exact hthrows.of_with.of_push
    exact ⟨u, _, o, _, _, _, (throwObject_of_error hfault hrun).trans hverified, rfl,
      .converted hverify hfirst hmeets hblank, hthrown⟩

/-- The stack is what is left of the frames after some of them were taken off, except that the
topmost one that is left may go on elsewhere with other operands. -/
def LeftOf (stack frames : List Frame) : Prop :=
  stack = [] ∨ ∃ f below pc operands, f :: below <:+ frames ∧
    stack = { f with pc, operands } :: below

theorem createAndThrow_leftOf {t : Throwable} {u : Unwinding}
    (hclasses : σ.state.hierarchy.HasThrowables) (hstack : σ.state.stack ≠ [])
    (h : (createAndThrow t).apply σ = (.ok u, τ)) : LeftOf τ.state.stack σ.state.stack := by
  obtain ⟨u', τ', o, heap, frames, search, hrun, -, hlaunch, stack, hunwinds, hstate⟩ :=
    createAndThrow_spec t hclasses hstack
  cases h.symm.trans hrun
  have hsuffix : frames <:+ σ.state.stack := by
    cases hlaunch with
    | itself => exact List.suffix_rfl
    | converted _ _ hmeets =>
      obtain ⟨⟨left, hframes, -⟩, -⟩ := hmeets
      exact ⟨left, hframes.symm⟩
  rw [hstate]
  cases hunwinds with
  | uncaught => exact .inl rfl
  | @caught left f below pc =>
    have hbelow : f :: below <:+ left ++ f :: below := List.suffix_append left _
    exact .inr ⟨f, below, pc, _, hbelow.trans hsuffix, rfl⟩

theorem raise_of_nil (t : Throwable) (hclasses : σ.state.hierarchy.HasThrowables)
    (hstack : σ.state.stack = []) :
    ∃ τ, (raise t).apply σ = (.error .threadStackEmpty, τ) ∧ τ.state.stack = [] := by
  obtain ⟨fields, hfields⟩ := hclasses.instanceFields t
  rw [raise, apply_note_bind, apply_bind,
    apply_createThrowable (σ := { σ with events := .throwing t :: σ.events }) hfields]
  dsimp only
  rw [apply_bind, pushOperand, updateFrame, apply_state_bind]
  dsimp only [Session.adding]
  rw [hstack]
  exact ⟨_, rfl, rfl⟩

theorem createAndThrow_of_nil (t : Throwable) (hclasses : σ.state.hierarchy.HasThrowables)
    (hstack : σ.state.stack = []) :
    ∃ τ, (createAndThrow t).apply σ = (.error (.state .threadStackEmpty), τ) ∧
      τ.state.stack = [] := by
  obtain ⟨τ, hraise, hnil⟩ := raise_of_nil t hclasses hstack
  refine ⟨τ, ?_, hnil⟩
  unfold createAndThrow
  split
  · next hverify =>
    subst hverify
    rw [throwVerifyError, apply_mapError, apply_bind, hraise]
    rfl
  · rw [apply_bind, apply_mapError, hraise]
    rfl

theorem createAndThrow_error {t : Throwable} {e : ExecutionError}
    (hclasses : σ.state.hierarchy.HasThrowables)
    (h : (createAndThrow t).apply σ = (.error e, τ)) : τ.state.stack = σ.state.stack := by
  by_cases hstack : σ.state.stack = []
  · obtain ⟨_, hrun, hnil⟩ := createAndThrow_of_nil t hclasses hstack
    cases h.symm.trans hrun
    rw [hnil, hstack]
  · obtain ⟨_, _, _, _, _, _, hrun, -⟩ := createAndThrow_spec t hclasses hstack
    cases h.symm.trans hrun

/-- **Throwing is total.** On a thread with frames, however malformed they are, an exception of the
machine is caught by a frame, which is then the current one, or ends the thread. Nothing but the
frames, the heap and the exception that ended the thread changes. -/
theorem createAndThrow_total (t : Throwable) {σ : Session}
    (hclasses : σ.state.hierarchy.HasThrowables) (hstack : σ.state.stack ≠ []) :
    ∃ (u : Unwinding) (τ : Session) (o : HeapObject) (heap : Heap) (frames : List Frame)
      (search : HandlerSearch),
      (createAndThrow t).apply σ = (.ok u, τ) ∧
      Launch σ.state t o heap frames search ∧
      Unwinds σ.state.hierarchy o.className (.concrete heap.size) search frames u τ.state.stack ∧
      τ.queries = σ.queries ∧
      τ.state = { σ.state with
        heap := heap.add o
        stack := τ.state.stack
        uncaught := if u = .uncaught then some (.concrete heap.size) else σ.state.uncaught } := by
  obtain ⟨u, τ, o, heap, frames, search, hrun, hqueries, hlaunch, stack, hunwinds, hstate⟩ :=
    createAndThrow_spec t hclasses hstack
  have hleft : τ.state.stack = stack := by
    rw [hstate]
    cases u <;> rfl
  refine ⟨u, τ, o, heap, frames, search, hrun, hlaunch, hleft ▸ hunwinds, hqueries, ?_⟩
  rw [hstate]
  cases u <;> rfl

def strayFrame : Frame :=
  ⟨.initializer objectClass, Bootstrap.object.build, [], [], 0, 0, [], []⟩

def strayThread : State := { State.create .bootstrap none .ample with stack := [strayFrame] }

theorem verifyError_hasField {f : Field} (hf : Bootstrap.throwable.build.HasOwnField f) :
    Hierarchy.bootstrap.HasField Throwable.verifyError.className f := by
  have hinherits {name superName : String}
      (hmem : Bootstrap.exceptionClass name superName ∈ Bootstrap.outlines)
      (hfield : Hierarchy.bootstrap.HasField superName f) : Hierarchy.bootstrap.HasField name f :=
    .inherited (Hierarchy.bootstrap_get? hmem) rfl (by simp [Bootstrap.exceptionClass,
      ClassOutline.build, ClassOutline.publicClass]) hfield
  have hthrowable : Hierarchy.bootstrap.HasField throwableClass f :=
    .own (Hierarchy.bootstrap_get? (o := Bootstrap.throwable) (by simp [Bootstrap.outlines])) hf
  have herror : Hierarchy.bootstrap.HasField "java/lang/Error" f :=
    hinherits (by simp [Bootstrap.outlines]) hthrowable
  have hlinkage : Hierarchy.bootstrap.HasField "java/lang/LinkageError" f :=
    hinherits (by simp [Bootstrap.outlines]) herror
  exact hinherits (Hierarchy.mem_outlines_of_throwable .verifyError) hlinkage

/-- The only frame of a thread is malformed: a verification error ends the thread, after the
exception that was to be thrown has been made. The error has neither a message nor a cause. -/
theorem createAndThrow_strayFrame :
    Hierarchy.bootstrap.HasThrowables ∧ strayThread.stack ≠ [] ∧
      ∃ τ, (createAndThrow .nullPointerException).apply (.start strayThread) = (.ok .uncaught, τ) ∧
        τ.state.stack = [] ∧ τ.state.heap.size = 2 ∧ τ.state.uncaught = some (.concrete 1) ∧
        τ.state.classOf (.concrete 1) = .ok "java/lang/VerifyError" ∧
        τ.state.getField (.concrete 1) "detailMessage" = .ok .null ∧
        τ.state.getField (.concrete 1) "cause" = .ok .null := by
  have hclasses := (Hierarchy.Includes.refl .bootstrap).hasThrowables
  refine ⟨hclasses, List.cons_ne_nil _ _, ?_⟩
  obtain ⟨u, τ, o, heap, frames, search, hrun, hlaunch, hunwinds, -, hstate⟩ :=
    createAndThrow_total .nullPointerException (σ := .start strayThread) hclasses
      (List.cons_ne_nil _ _)
  cases hlaunch with
  | itself hblank =>
    -- a strict search does not get past the frame
    rcases hunwinds.of_cons with ⟨hnone, -⟩ | ⟨pc, hfound, -⟩
    · cases hnone
    · cases hfound
  | converted hother hfirst hmeets hblank =>
    rcases hmeets.of_cons with ⟨hnone, -⟩ | ⟨-, rfl, rfl⟩
    · cases hnone
    rcases hunwinds.of_cons with ⟨-, hrest⟩ | ⟨pc, hfound, -⟩
    · obtain ⟨rfl, hleft⟩ := hrest.of_eq_nil rfl
      obtain ⟨fields, rfl, hdefaults, -⟩ := hblank
      have hobject : τ.state.object (.concrete 1) =
          .ok (.object "java/lang/VerifyError" fields) := by
        rw [hstate]
        rfl
      have hmessageType : FieldType.parse "Ljava/lang/String;" =
          .ok (.reference "java/lang/String") := by decide +kernel
      have hcauseType : FieldType.parse "Ljava/lang/Throwable;" =
          .ok (.reference "java/lang/Throwable") := by decide +kernel
      obtain ⟨_, htype, hmessage⟩ := hdefaults
        ⟨0x0002, "detailMessage", "Ljava/lang/String;", none⟩
        (verifyError_hasField ⟨by decide, [], _, rfl, by decide⟩)
      cases htype.symm.trans hmessageType
      obtain ⟨_, htype, hcause⟩ := hdefaults ⟨0x0002, "cause", "Ljava/lang/Throwable;", none⟩
        (verifyError_hasField ⟨by decide, [_], [], rfl, by simp⟩)
      cases htype.symm.trans hcauseType
      refine ⟨τ, hrun, hleft, by rw [hstate]; rfl, by rw [hstate]; rfl, ?_, ?_, ?_⟩
      · rw [State.classOf, hobject]
        rfl
      · simp only [State.getField, hobject, bind, Except.bind, HeapObject.getField, hmessage]
        rfl
      · simp only [State.getField, hobject, bind, Except.bind, HeapObject.getField, hcause]
        rfl
    · cases hfound

end Exec

end SymbolicBytecode

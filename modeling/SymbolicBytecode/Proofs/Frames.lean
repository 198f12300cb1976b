import Mathlib
import SymbolicBytecode.Proofs.Invocation

/-!
# Frames that come and go

What an operation on the thread has done to it: either nothing, because it has failed, or the frames
are given here. A frame begins with its arguments in its local variables, a caller resumes where it
was told to, and an exception leaves frames.
-/
namespace SymbolicBytecode

/-- A frame at the start of a method, with nothing but arguments in it. -/
structure Frame.Begins (f : Frame) (signature : Signature) (owner : ClassFile)
    (args : List Value) : Prop where
  signature_eq : f.signature = signature
  owner_eq : f.owner = owner
  operands_eq : f.operands = []
  locals : ∀ v, some v ∈ f.locals → v ∈ args

theorem Value.slots_pos (v : Value) : 0 < v.slots := by
  unfold slots
  split <;> decide

namespace Frame

variable {signature : Signature} {owner : ClassFile} {m : Method} {args : List Value}

/-- The slot of an argument: it comes behind those of the arguments before it. -/
def argumentSlot (args : List Value) (i : Nat) : Nat := ((args.take i).map Value.slots).sum

theorem length_layOutLocals {slot room : Nat} {locals : List (Option Value)}
    (h : layOutLocals slot room args = .ok locals) : locals.length = room := by
  induction args generalizing slot room locals with
  | nil =>
    cases h
    exact List.length_replicate
  | cons a rest ih =>
    rw [layOutLocals] at h
    split at h
    · next hroom =>
      obtain ⟨tail, htail, h⟩ := except_bind_ok_iff.1 h
      cases h
      have hpos := a.slots_pos
      simp only [List.length_cons, List.length_append, List.length_replicate, ih htail]
      omega
    · cases h

/-- Each argument is in its slot, and there is nothing else in the local variables. -/
theorem getElem?_layOutLocals {slot room : Nat} {locals : List (Option Value)}
    (h : layOutLocals slot room args = .ok locals) (k : Nat) (v : Value) :
    locals[k]? = some (some v) ↔ ∃ i, args[i]? = some v ∧ k = argumentSlot args i := by
  induction args generalizing slot room locals k with
  | nil =>
    cases h
    simp [List.getElem?_replicate]
  | cons a rest ih =>
    rw [layOutLocals] at h
    split at h
    · obtain ⟨tail, htail, h⟩ := except_bind_ok_iff.1 h
      cases h
      have hpos := a.slots_pos
      have hsplit : (∃ i, (a :: rest)[i]? = some v ∧ k = argumentSlot (a :: rest) i) ↔
          a = v ∧ k = 0 ∨ ∃ i, rest[i]? = some v ∧ k = a.slots + argumentSlot rest i := by
        rw [← Nat.or_exists_add_one]
        simp [argumentSlot]
      rw [hsplit]
      cases k with
      | zero => grind
      | succ k =>
        rw [List.getElem?_cons_succ, List.getElem?_append, List.length_replicate]
        split
        -- the other slot of a wide argument, and then the arguments behind it
        · grind
        · rw [ih htail]
          grind
    · cases h

/-- A frame that is about to execute a method: it is at the start of the code, and the arguments are
in their slots. -/
structure Starts (f : Frame) (signature : Signature) (owner : ClassFile) (m : Method)
    (args : List Value) : Prop where
  signature_eq : f.signature = signature
  owner_eq : f.owner = owner
  body : ∃ code, m.code = some code ∧ f.code = code.bytes ∧ f.handlers = code.handlers ∧
    f.locals.length = code.maxLocals.toNat
  pc_eq : f.pc = 0
  operands_eq : f.operands = []
  locals : ∀ slot v, f.locals[slot]? = some (some v) ↔
    ∃ i, args[i]? = some v ∧ slot = argumentSlot args i

theorem create_starts {f : Frame} (h : create signature owner m args = .ok f) :
    f.Starts signature owner m args := by
  unfold create at h
  split at h
  · cases h
  next code hcode =>
  split at h
  · cases h
  next hlocals =>
  cases h
  exact ⟨rfl, rfl, ⟨code, hcode, rfl, rfl, length_layOutLocals hlocals⟩, rfl, rfl,
    getElem?_layOutLocals hlocals⟩

theorem code_of_create {f : Frame} (h : create signature owner m args = .ok f) :
    m.code.isSome := by
  obtain ⟨code, hcode, -⟩ := (create_starts h).body
  simp [hcode]

theorem create_begins {f : Frame} (h : create signature owner m args = .ok f) :
    f.Begins signature owner args := by
  have hstarts := create_starts h
  refine ⟨hstarts.signature_eq, hstarts.owner_eq, hstarts.operands_eq, fun v hv => ?_⟩
  obtain ⟨slot, hslot⟩ := List.mem_iff_getElem?.1 hv
  obtain ⟨i, hi, -⟩ := (hstarts.locals slot v).1 hslot
  exact List.mem_of_getElem? hi

theorem patch_ok {f g : Frame} {pc : Nat} {opcode : UInt8} (h : f.patch pc opcode = .ok g) :
    g = { f with code := f.code.set pc opcode } := by
  unfold patch at h
  split at h
  · cases h
    rfl
  · cases h

end Frame

/-- The frames of a thread whose current frame resumes behind its present instruction. -/
def resuming (offset : Nat) : List Frame → List Frame
  | [] => []
  | f :: rest => f.setReturnOffset offset :: rest

/-- The static store after a method has returned. -/
def Signature.finish (method : Signature) (statics : Table Klass) : Table Klass :=
  if method.isInitializer then
    match statics.get? method.className with
    | some k => statics.insert method.className { k with status := .initialized }
    | none => statics
  else statics

theorem resumingHere_eq (stack : List Frame) : resumingHere stack = resuming 0 stack := by
  cases stack <;> rfl

theorem Signature.get?_finish (method : Signature) (statics : Table Klass) (name : String) :
    (method.finish statics).get? name =
      if method.isInitializer ∧ name = method.className then
        (statics.get? name).map ({ · with status := .initialized })
      else statics.get? name := by
  unfold finish
  by_cases hmethod : method.isInitializer
  · simp only [hmethod, if_true, true_and]
    split
    · next k hget =>
      rw [Table.get?_insert]
      split
      · next heq => rw [heq, hget]; rfl
      · rfl
    · next hnone =>
      split
      · next heq => rw [heq, hnone]; rfl
      · rfl
  · simp [hmethod]

theorem Signature.contains_finish (method : Signature) (statics : Table Klass) (name : String) :
    (method.finish statics).contains name = statics.contains name := by
  rw [Table.contains, Signature.get?_finish]
  split <;> simp [Table.contains]

/-- A class that is initialized stays so. -/
theorem Signature.finish_keeps {statics : Table Klass} {name : String} {k : Klass}
    (method : Signature) (hget : statics.get? name = some k) (hstatus : k.status = .initialized) :
    ∃ l, (method.finish statics).get? name = some l ∧ l.status = .initialized := by
  rw [Signature.get?_finish, hget]
  split
  · exact ⟨_, rfl, rfl⟩
  · exact ⟨k, rfl, hstatus⟩

/-- An exception leaves frames, and the one that handles it has no other operands then. -/
theorem unwind_stack (h : Hierarchy) (thrown : String) (ref : Reference) (search : HandlerSearch)
    (frames : List Frame) :
    (unwind h thrown ref search frames).stack = [] ∨
    ∃ f g below, f :: below <:+ frames ∧
      (unwind h thrown ref search frames).stack = g :: below ∧
      (g = f ∨ ∃ pc, g = { f with pc, operands := [.reference ref] }) := by
  rcases unwind_cases h thrown ref search frames with
    ⟨u, -, hunwinds⟩ | ⟨e, f, below, -, hstack, -, -, ⟨left, hframes, -⟩, -⟩
  · generalize (unwind h thrown ref search frames).stack = stack at hunwinds ⊢
    cases hunwinds with
    | uncaught => exact .inl rfl
    | @caught left f below pc => exact .inr ⟨f, _, below, ⟨left, rfl⟩, rfl, .inr ⟨pc, rfl⟩⟩
  · exact .inr ⟨f, f, below, ⟨left, hframes.symm⟩, hstack, .inl rfl⟩

namespace Exec

variable {α : Type} {σ : Session}

theorem updateFrame_cases (g : Frame → Except Fault (α × Frame)) (σ : Session) :
    (∃ e, (updateFrame g).apply σ = (.error e, σ)) ∨
    ∃ f rest r, σ.state.stack = f :: rest ∧ g f = .ok r ∧
      (updateFrame g).apply σ =
        (.ok r.1, { σ with state := { σ.state with stack := r.2 :: rest } }) := by
  cases hstack : σ.state.stack with
  | nil =>
    left
    rw [updateFrame, apply_state_bind, hstack]
    exact ⟨_, rfl⟩
  | cons f rest =>
    cases hg : g f with
    | error e =>
      left
      rw [updateFrame, apply_state_bind, hstack]
      exact ⟨e, apply_lift_bind_error_iff.2 (.inl ⟨hg, rfl⟩)⟩
    | ok r => exact .inr ⟨f, rest, r, rfl, hg, apply_updateFrame hstack hg⟩

theorem popOperands_cases (count : Nat) (σ : Session) :
    (∃ e, (popOperands count).apply σ = (.error e, σ)) ∨
    ∃ f rest, σ.state.stack = f :: rest ∧
      (popOperands count).apply σ = (.ok (f.operands.take count).reverse,
        { σ with state := { σ.state with
          stack := { f with operands := f.operands.drop count } :: rest } }) := by
  rcases updateFrame_cases (·.pop count) σ with herror | ⟨f, rest, r, hstack, hpop, hrun⟩
  · exact .inl herror
  · rw [Frame.pop] at hpop
    split at hpop
    · cases hpop
      exact .inr ⟨f, rest, hstack, hrun⟩
    · cases hpop

theorem apply_pushPrepared_resuming (frame : Frame) (offset : Nat) (σ : Session) :
    (pushPrepared frame offset).apply σ =
      (.ok (), { σ with
        state := { σ.state with stack := frame :: resuming offset σ.state.stack }
        events := .framePushed frame.signature :: σ.events }) := by
  rw [pushPrepared, apply_note_bind, apply_state_bind]
  dsimp only
  cases σ.state.stack <;> rfl

theorem pushFrame_cases (signature : Signature) (isRoot : Bool) (offset : Nat)
    (args : List Value) (σ : Session) :
    (∃ e, (pushFrame signature isRoot offset args).apply σ = (.error e, σ)) ∨
    ∃ c m frame, σ.state.hierarchy.get? signature.className = some c ∧
      c.method? signature.name signature.descriptor = some m ∧
      Frame.create signature c m args = .ok frame ∧
      (pushFrame signature isRoot offset args).apply σ =
        if isRoot then
          (.ok (), { σ with state := { σ.state with stack := frame :: σ.state.stack } })
        else (pushPrepared frame offset).apply σ := by
  rw [pushFrame, apply_state_bind, apply_bind, apply_liftM]
  cases hfind : σ.state.hierarchy.find signature.className with
  | error e => exact .inl ⟨_, rfl⟩
  | ok c =>
    dsimp only [Except.mapError]
    split
    · exact .inl ⟨_, rfl⟩
    next m hm =>
    rw [apply_bind, apply_liftM]
    cases hcreate : Frame.create signature c m args with
    | error e => exact .inl ⟨e, rfl⟩
    | ok frame =>
      refine .inr ⟨c, m, frame, Hierarchy.find_ok_iff.1 hfind, hm, hcreate, ?_⟩
      cases isRoot <;> rfl

/-- A frame is pushed for a method with code. -/
theorem pushFrame_code {signature : Signature} {isRoot : Bool} {offset : Nat} {args : List Value}
    {σ τ : Session} (h : (pushFrame signature isRoot offset args).apply σ = (.ok (), τ)) :
    ∃ c m, σ.state.hierarchy.get? signature.className = some c ∧
      c.method? signature.name signature.descriptor = some m ∧ m.code.isSome := by
  rcases pushFrame_cases signature isRoot offset args σ with
    ⟨e, herror⟩ | ⟨c, m, frame, hget, hm, hcreate, -⟩
  · rw [herror] at h
    cases h
  · exact ⟨c, m, hget, hm, Frame.code_of_create hcreate⟩

theorem apply_finishInitializer (method : Signature) (σ : Session) :
    (finishInitializer method).apply σ =
      (.ok (), { σ with state := { σ.state with statics := method.finish σ.state.statics } }) := by
  unfold finishInitializer Signature.finish
  split
  · rw [apply_state_bind]
    cases σ.state.statics.get? method.className <;> rfl
  · rfl

theorem apply_completeFrame_nil (result : Option Value) (hstack : σ.state.stack = []) :
    (completeFrame result).apply σ = (.error .threadStackEmpty, σ) := by
  rw [completeFrame, popFrame, bind_assoc, apply_state_bind, hstack]
  rfl

theorem apply_completeFrame_root {f : Frame} (result : Option Value)
    (hstack : σ.state.stack = [f]) :
    (completeFrame result).apply σ = (.ok (), { σ with state := { σ.state with
      stack := []
      statics := f.signature.finish σ.state.statics } }) := by
  rw [completeFrame, popFrame, bind_assoc, apply_state_bind, hstack]
  dsimp only
  rw [apply_bind, apply_bind]
  dsimp only [apply_setStack, apply_pure]
  rw [apply_bind, apply_finishInitializer]
  rfl

theorem apply_completeFrame {f caller : Frame} {rest : List Frame} (result : Option Value)
    (hstack : σ.state.stack = f :: caller :: rest) :
    (completeFrame result).apply σ =
      let statics := f.signature.finish σ.state.statics
      match caller.setPc caller.returnPc with
      | .ok next => (.ok (), { σ with state := { σ.state with
          stack := (result.map next.push).getD next :: rest
          statics } })
      | .error e => (.error e, { σ with state := { σ.state with
          stack := caller :: rest
          statics } }) := by
  rw [completeFrame, popFrame, bind_assoc, apply_state_bind, hstack]
  dsimp only
  rw [apply_bind, apply_bind]
  dsimp only [apply_setStack, apply_pure]
  rw [apply_bind, apply_finishInitializer]
  dsimp only
  rw [apply_state_bind]
  dsimp only
  rw [apply_bind, apply_liftM]
  cases caller.setPc caller.returnPc <;> rfl

theorem throwFrom_unwinds (ref : Reference) (search : HandlerSearch) (σ : Session) :
    (∃ e, (throwFrom ref search).apply σ = (.error e, σ)) ∨
    ∃ thrown uncaught, σ.state.classOf ref = .ok thrown ∧
      (uncaught = σ.state.uncaught ∨ uncaught = some ref) ∧
      ((throwFrom ref search).apply σ).2 =
        { σ with
          state := { σ.state with
            stack := (unwind σ.state.hierarchy thrown ref search σ.state.stack).stack
            uncaught }
          events := (unwind σ.state.hierarchy thrown ref search σ.state.stack).events.reverse ++
            σ.events } := by
  cases hclass : σ.state.classOf ref with
  | error e =>
    rw [throwFrom, apply_state_bind, apply_bind, apply_liftM, hclass]
    exact .inl ⟨e, rfl⟩
  | ok thrown =>
    by_cases hstack : σ.state.stack = []
    · rw [throwFrom, apply_state_bind, apply_bind, apply_liftM, hclass, hstack]
      exact .inl ⟨_, rfl⟩
    right
    rw [apply_throwFrom search hclass hstack]
    dsimp only
    cases (unwind σ.state.hierarchy thrown ref search σ.state.stack).outcome with
    | error e => exact ⟨thrown, σ.state.uncaught, rfl, .inl rfl, rfl⟩
    | ok u =>
      cases u with
      | caught pc => exact ⟨thrown, σ.state.uncaught, rfl, .inl rfl, rfl⟩
      | uncaught => exact ⟨thrown, some ref, rfl, .inr rfl, rfl⟩

/-- An exception of the machine is an operand of the current frame as soon as it is made. -/
theorem raise_cases (t : Throwable) (σ : Session) :
    ((raise t).apply σ).2 = { σ with events := .throwing t :: σ.events } ∨
    ∃ o, σ.state.hierarchy.Makes t.className o ∧
      ((raise t).apply σ).2 = ((pushOperand (.reference (.concrete σ.state.heap.size))).apply
        (Session.adding { σ with events := .throwing t :: σ.events } o)).2 := by
  rw [raise, apply_note_bind, apply_bind]
  cases hfields : σ.state.hierarchy.instanceFields t.className with
  | error e =>
    left
    rw [createThrowable, apply_bind, apply_blankInstance]
    simp only [hfields]
  | ok fields =>
    right
    refine ⟨_, ⟨fields, hfields, rfl⟩, ?_⟩
    rw [apply_createThrowable (σ := { σ with events := .throwing t :: σ.events }) hfields]
    dsimp only
    rw [apply_bind]
    split
    · next hpush => rw [hpush]; rfl
    · next hpush => rw [hpush]

end Exec

end SymbolicBytecode

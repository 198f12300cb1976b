import Mathlib
import SymbolicBytecode.Proofs.Capacity
import SymbolicBytecode.Proofs.Frames

/-!
# What a failed operation leaves behind

Most operations on a state look first and act then, so that one that fails has changed nothing.
There are three that fail between two changes. A literal may get its characters and no string, the
entry of a class may fail when some of its literals have been made, and a frame is left before it
is known whether its caller can resume. Below is what each of them leaves behind, and exactly when
that is nothing.
-/
namespace SymbolicBytecode

variable {σ τ : Session} {e : Fault}

/-- The operations on a state that can fail. -/
inductive Primitive where
  | createInstance (className : String)
  | createThrowable (className : String)
  | createArray (component : FieldType) (length : Int32)
  | internString (text : String)
  | createKlass (className : String)
  | setField (ref : Reference) (field : String) (v : Value)
  | setElement (ref : Reference) (index : Int32) (v : Value)
  | setStatic (className field : String) (v : Value)
  | setKlassStatus (className : String) (status : KlassStatus)
  | assumeNull (ref : SymbolicRef)
  | assumeAliases (ref : SymbolicRef) (position : Nat)
  | assumeExpands (ref : SymbolicRef) (className : String)
  | pushFrame (signature : Signature) (isRoot : Bool) (returnOffset : Nat) (args : List Value)
  | popOperands (count : Nat)
  | completeFrame (result : Option Value)

/-- The operation fails and leaves the second session behind. -/
def Primitive.Fails (σ : Session) (e : Fault) (τ : Session) : Primitive → Prop
  | createInstance className => (Exec.createInstance className).apply σ = (.error e, τ)
  | createThrowable className => (Exec.createThrowable className).apply σ = (.error e, τ)
  | createArray component length => (Exec.createArray component length).apply σ = (.error e, τ)
  | internString text => (Exec.internString text).apply σ = (.error e, τ)
  | createKlass className => (Exec.createKlass className).apply σ = (.error e, τ)
  | setField ref field v => (Exec.setField ref field v).apply σ = (.error e, τ)
  | setElement ref index v => (Exec.setElement ref index v).apply σ = (.error e, τ)
  | setStatic className field v => (Exec.setStatic className field v).apply σ = (.error e, τ)
  | setKlassStatus className status =>
    (Exec.setKlassStatus className status).apply σ = (.error e, τ)
  | assumeNull ref => (Exec.assumeNull ref).apply σ = (.error e, τ)
  | assumeAliases ref position => (Exec.assumeAliases ref position).apply σ = (.error e, τ)
  | assumeExpands ref className => (Exec.assumeExpands ref className).apply σ = (.error e, τ)
  | pushFrame signature isRoot returnOffset args =>
    (Exec.pushFrame signature isRoot returnOffset args).apply σ = (.error e, τ)
  | popOperands count => (Exec.popOperands count).apply σ = (.error e, τ)
  | completeFrame result => (Exec.completeFrame result).apply σ = (.error e, τ)

section Atomic

open Exec

variable {ε α β : Type}

namespace Exec

/-- The operation changes nothing, whatever it comes to. -/
abbrev Looks (x : Exec ε α) : Prop := MadeOf (fun _ _ => False) x

def Succeeds (x : Exec ε α) : Prop := ∀ σ, ∃ a τ, x.apply σ = (.ok a, τ)

/-- If the operation fails, it has changed nothing. -/
def Atomic (x : Exec ε α) : Prop := ∀ σ τ e, x.apply σ = (.error e, τ) → τ = σ

theorem Succeeds.bind {x : Exec ε α} {f : α → Exec ε β} (hx : Succeeds x)
    (hf : ∀ a, Succeeds (f a)) : Succeeds (x >>= f) := by
  intro σ
  obtain ⟨a, ρ, hfirst⟩ := hx σ
  obtain ⟨b, τ, hsecond⟩ := hf a ρ
  exact ⟨b, τ, apply_bind_ok_iff.2 ⟨a, ρ, hfirst, hsecond⟩⟩

theorem Succeeds.atomic {x : Exec ε α} (hx : Succeeds x) : Atomic x := by
  intro σ τ e h
  obtain ⟨a, ρ, hok⟩ := hx σ
  rw [hok] at h
  cases h

theorem Looks.atomic {x : Exec ε α} (hx : Looks x) : Atomic x := fun _ _ _ h => hx.unchanged h

namespace Atomic

variable {x : Exec ε α} {f : α → Exec ε β}

/-- Look first. -/
theorem look_bind (hx : Looks x) (hf : ∀ a, Atomic (f a)) : Atomic (x >>= f) := by
  intro σ τ e h
  rcases apply_bind_error_iff.1 h with hlook | ⟨a, ρ, hlook, hact⟩
  · exact hx.unchanged hlook
  · obtain rfl := hx.unchanged hlook
    exact hf a _ _ _ hact

/-- After the last operation that can fail come only such that cannot. -/
theorem bind_act (hx : Atomic x) (hf : ∀ a, Succeeds (f a)) : Atomic (x >>= f) := by
  intro σ τ e h
  rcases apply_bind_error_iff.1 h with hfirst | ⟨a, ρ, -, hact⟩
  · exact hx _ _ _ hfirst
  · obtain ⟨b, π, hok⟩ := hf a ρ
    rw [hok] at hact
    cases hact

theorem lift_bind {r : Except ε α} (hf : ∀ a, Atomic (f a)) : Atomic (liftM r >>= f) :=
  look_bind (.lift r) hf

theorem state_bind {f : State → Exec ε β} (hf : ∀ s, Atomic (f s)) : Atomic (Exec.state >>= f) :=
  look_bind .state hf

theorem throw (e : ε) : Atomic (MonadExcept.throw e : Exec ε α) := Looks.atomic (.throw e)

end Atomic

theorem succeeds_pure (a : α) : Succeeds (pure a : Exec ε α) := fun σ => ⟨a, σ, rfl⟩

theorem succeeds_setState (s : State) : Succeeds (setState s : Exec ε Unit) :=
  fun _ => ⟨_, _, rfl⟩

theorem succeeds_setStack (stack : List Frame) : Succeeds (setStack stack : Exec ε Unit) :=
  fun _ => ⟨_, _, rfl⟩

theorem succeeds_insertKlass (className : String) (k : Klass) :
    Succeeds (insertKlass className k) :=
  fun σ => ⟨_, _, apply_insertKlass className k σ⟩

theorem succeeds_assume (c : Clause) : Succeeds (assume c) := fun σ => ⟨_, _, apply_assume c σ⟩

theorem blankInstance_looks (className : String) : Looks (blankInstance className) :=
  .bind .state fun _ => .bind (.lift _) fun _ => .pure _

theorem checkUnresolved_looks (ref : SymbolicRef) : Looks (checkUnresolved ref) := by
  refine .bind .state fun s => ?_
  split
  · exact .throw _
  · exact .pure _

theorem allocate_atomic (o : HeapObject) : Atomic (allocate o) :=
  Succeeds.atomic fun σ => ⟨_, _, apply_allocate o σ⟩

theorem allocateWithinLimit_atomic (o : HeapObject) : Atomic (allocateWithinLimit o) :=
  .state_bind fun _ => .lift_bind fun _ => allocate_atomic o

theorem createInstance_atomic (className : String) : Atomic (createInstance className) :=
  .look_bind (blankInstance_looks className) fun o => allocateWithinLimit_atomic o

theorem createThrowable_atomic (className : String) : Atomic (createThrowable className) :=
  .look_bind (blankInstance_looks className) fun o => allocate_atomic o

theorem createArray_atomic (component : FieldType) (length : Int32) :
    Atomic (createArray component length) :=
  .state_bind fun _ => .lift_bind fun o => allocateWithinLimit_atomic o

theorem updateObject_atomic (ref : Reference) (f : HeapObject → Except Fault HeapObject) :
    Atomic (updateObject ref f) :=
  .state_bind fun _ => .lift_bind fun _ => .lift_bind fun _ => .lift_bind fun _ =>
    (succeeds_setState _).atomic

theorem setStatic_atomic (className field : String) (v : Value) :
    Atomic (setStatic className field v) := by
  refine .state_bind fun s => .lift_bind fun k => ?_
  split
  · exact (succeeds_insertKlass _ _).atomic
  · exact .throw _

theorem setKlassStatus_atomic (className : String) (status : KlassStatus) :
    Atomic (setKlassStatus className status) :=
  .state_bind fun _ => .lift_bind fun _ => (succeeds_insertKlass _ _).atomic

theorem assumeNull_atomic (ref : SymbolicRef) : Atomic (assumeNull ref) :=
  .look_bind (checkUnresolved_looks ref) fun _ => (succeeds_assume _).atomic

theorem assumeAliases_atomic (ref : SymbolicRef) (position : Nat) :
    Atomic (assumeAliases ref position) :=
  .look_bind (checkUnresolved_looks ref) fun _ => .state_bind fun _ => .lift_bind fun _ =>
    (succeeds_assume _).atomic

theorem assumeExpands_atomic (ref : SymbolicRef) (className : String) :
    Atomic (assumeExpands ref className) :=
  .look_bind (checkUnresolved_looks ref) fun _ => (createInstance_atomic className).bind_act
    fun _ => (succeeds_assume _).bind fun _ => succeeds_pure _

theorem pushFrame_atomic (signature : Signature) (isRoot : Bool) (offset : Nat)
    (args : List Value) : Atomic (pushFrame signature isRoot offset args) := by
  refine .state_bind fun s => .lift_bind fun c => ?_
  split
  · exact .throw _
  refine .lift_bind fun frame => ?_
  split
  · exact (succeeds_setStack _).atomic
  · exact Succeeds.atomic fun σ => ⟨_, _, apply_pushPrepared_resuming frame offset σ⟩

theorem updateFrame_atomic (f : Frame → Except Fault (α × Frame)) : Atomic (updateFrame f) := by
  refine .state_bind fun s => ?_
  split
  · exact .throw _
  · exact .lift_bind fun _ => ((succeeds_setStack _).bind fun _ => succeeds_pure _).atomic

end Exec

end Atomic

/-- The second state differs from the first by more objects and literals alone. -/
structure State.GainsObjects (s t : State) : Prop where
  rest : t = { s with heap := t.heap, strings := t.strings }
  objects : ∀ position o, s.heap.get? position = some o → t.heap.get? position = some o
  literals : ∀ text position, s.strings.get? text = some position →
    t.strings.get? text = some position

/-- The field has a type, and its constant, if it has one, is a literal. -/
def ClassFile.isReadable (c : ClassFile) (f : Field) : Bool :=
  (FieldType.parse f.descriptor).isOk &&
    f.constantValue.all fun index => (c.pool.literal index).isOk

/-- The field can be read, and if its constant is a text, there is a string object for it or an
array for its characters. -/
def State.provides (s : State) (c : ClassFile) (f : Field) : Bool :=
  c.isReadable f && (c.text? f).all fun text =>
    s.strings.contains text || decide (s.host.Grants (Text.unitCount text))

namespace Primitive

/-- What a failed operation may leave behind. -/
def Leaves (s t : State) : Primitive → Prop
  | internString text =>
    t = s ∨ t = { s with heap := s.heap.add (Exec.charArray text) } ∨
      ∃ fields, t = { s with heap :=
        (s.heap.add (Exec.charArray text)).add (.ofFields stringClass fields) }
  | createKlass _ => s.GainsObjects t
  | completeFrame _ => t = s ∨ ∃ f caller rest, s.stack = f :: caller :: rest ∧
      t = { s with stack := caller :: rest, statics := f.signature.finish s.statics }
  | _ => t = s

/-- The states in which a failure of the operation leaves nothing behind. -/
def Spares (s : State) : Primitive → Prop
  | internString text => s.isFull ∨ ¬s.host.Grants (Text.unitCount text)
  | createKlass className => s.isFull ∨ ∀ c, s.hierarchy.get? className = some c →
      ∀ f ∈ c.staticFields.takeWhile (s.provides c), ∀ text, c.text? f = some text →
        s.strings.contains text
  | completeFrame _ => s.stack = []
  | _ => True

end Primitive

namespace State.GainsObjects

variable {s t u : State}

theorem refl (s : State) : GainsObjects s s := ⟨rfl, fun _ _ => id, fun _ _ => id⟩

theorem trans (h : GainsObjects s t) (h' : GainsObjects t u) : GainsObjects s u where
  rest := h'.rest.trans
    (congrArg (fun r : State => { r with heap := u.heap, strings := u.strings }) h.rest)
  objects position o ho := h'.objects position o (h.objects position o ho)
  literals text position hget := h'.literals text position (h.literals text position hget)

theorem add (s : State) (o : HeapObject) : GainsObjects s { s with heap := s.heap.add o } where
  rest := rfl
  objects position o' ho := by
    have hlt : position < s.heap.size := (Array.getElem?_eq_some_iff.1 ho).1
    rw [Heap.get?_add, if_neg hlt.ne, ho]
  literals _ _ := id

end State.GainsObjects

open State (GainsObjects)

namespace Exec

variable {c : ClassFile} {f : Field} {text : String}

theorem Interns.gainsObjects {r : Except Fault Nat} (h : Interns text σ r τ) :
    GainsObjects σ.state τ.state := by
  cases h with
  | known => exact .refl _
  | refused => exact .refl _
  | half => exact .add _ _
  | bare => exact (GainsObjects.add _ _).trans (.add _ _)
  | @made fields hnew =>
    have hadded := (GainsObjects.add σ.state (charArray text)).trans
      (.add _ (.ofFields stringClass fields))
    refine ⟨rfl, fun position o ho => ?_, fun other position hget => ?_⟩
    · have hlt : position < σ.state.heap.size := (Array.getElem?_eq_some_iff.1 ho).1
      rw [Heap.get?_set _ (by simp only [Heap.size_add]; omega), if_neg (by omega)]
      exact hadded.objects position o ho
    · rw [Table.get?_insert, if_neg]
      · exact hget
      · rintro rfl
        cases hget.symm.trans hnew

/-- A literal that could not be made leaves something behind just if there was an array for its
characters. -/
theorem Interns.state_eq_iff (h : Interns text σ (.error e) τ) :
    τ.state = σ.state ↔ σ.state.isFull ∨ ¬σ.state.host.Grants (Text.unitCount text) := by
  have hgrown (s : State) (hheap : σ.state.heap.size < s.heap.size) : s ≠ σ.state := by
    rintro rfl
    exact absurd hheap (lt_irrefl _)
  cases h with
  | refused _ hfail => exact iff_of_true rfl hfail
  | half _ hroom hgrants =>
    refine iff_of_false (hgrown _ ?_) (not_or_intro hroom (not_not_intro hgrants))
    simp only [Session.adding, Heap.size_add]
    omega
  | bare _ hroom _ hfits =>
    have hgrants := (Host.fits_iff.1 hfits).2
    refine iff_of_false (hgrown _ ?_) (not_or_intro hroom (not_not_intro hgrants))
    simp only [Session.adding, Heap.size_add]
    omega

theorem initialValues_gainsObjects {fields : List Field} {found : Table Value}
    {r : Except Fault (Table Value)}
    (h : (initialValues c false found fields).apply σ = (r, τ)) :
    GainsObjects σ.state τ.state := by
  have hintern (text : String) : Obeys (fun ρ => GainsObjects σ.state ρ.state) (fun _ => True)
      (internString text) := by
    intro ρ hρ
    rcases hrun : (internString text).apply ρ with ⟨r, π⟩
    obtain ⟨_, hinterns, rfl⟩ := internString_interns hrun
    exact ⟨hρ.trans hinterns.gainsObjects, fun _ _ => trivial⟩
  have hvalue (f : Field) (type : FieldType) :
      Obeys (fun ρ => GainsObjects σ.state ρ.state) (fun _ => True)
        (initialValue c false f type) := by
    unfold initialValue
    split
    · refine .bind (.lift fun _ _ => trivial) fun literal => ?_
      cases literal with
      | string text => exact (hintern text).bind fun _ => .pure _
      | _ => exact .pure _
    · exact .pure _
  have hvalues : Obeys (fun ρ => GainsObjects σ.state ρ.state) (fun _ => True)
      (initialValues c false found fields) := by
    clear h
    induction fields generalizing found with
    | nil => exact .pure _
    | cons f rest ih =>
      exact .bind (.lift fun _ _ => trivial) fun type => (hvalue f type).bind fun v => ih
  exact hvalues.state_of_apply (.refl _) h

/-- A field whose constant is not a text gets its value without any change. -/
theorem apply_initialValue_of_none (htext : c.text? f = none) (type : FieldType) (σ : Session) :
    ∃ r, (initialValue c false f type).apply σ = (r, σ) ∧
      r.isOk = f.constantValue.all fun index => (c.pool.literal index).isOk := by
  unfold initialValue
  cases hindex : f.constantValue with
  | none => exact ⟨_, rfl, rfl⟩
  | some index =>
    dsimp only
    rw [literalValue, Option.all_some]
    cases hliteral : c.pool.literal index with
    | error d => exact ⟨_, rfl, rfl⟩
    | ok literal =>
      cases literal with
      | string text => simp [ClassFile.text?, hindex, hliteral] at htext
      | _ => exact ⟨_, rfl, rfl⟩

theorem provides_of_none (s : State) (htext : c.text? f = none) :
    s.provides c f = c.isReadable f := by
  rw [State.provides, htext, Option.all_none, Bool.and_true]

theorem provides_of_some {s : State} (htext : c.text? f = some text)
    (hread : c.isReadable f = true) :
    s.provides c f ↔ s.strings.contains text ∨ s.host.Grants (Text.unitCount text) := by
  simp [State.provides, htext, hread]

/-- As long as there is room, the values of fields that cannot all be made leave something behind
just if there is a new text among those before the first that cannot be read or has no array. -/
theorem initialValues_state_eq_iff {fields : List Field} {found : Table Value}
    (hroom : ¬σ.state.isFull)
    (h : (initialValues c false found fields).apply σ = (.error e, τ)) :
    τ.state = σ.state ↔ ∀ f ∈ fields.takeWhile (σ.state.provides c), ∀ text,
      c.text? f = some text → σ.state.strings.contains text := by
  induction fields generalizing σ found with
  | nil => cases h
  | cons f rest ih =>
    rcases apply_lift_bind_error_iff.1 h with ⟨htype, rfl⟩ | ⟨type, htype, h⟩
    · obtain ⟨d, hd, -⟩ := except_mapError_error_iff.1 htype
      have hbad : τ.state.provides c f = false := by
        rw [State.provides, ClassFile.isReadable, hd]
        rfl
      simp [hbad]
    have hread : c.isReadable f = f.constantValue.all fun index => (c.pool.literal index).isOk := by
      rw [ClassFile.isReadable, except_mapError_ok_iff.1 htype]
      rfl
    cases htext : c.text? f with
    | none =>
      obtain ⟨r, hvalue, hok⟩ := apply_initialValue_of_none htext type σ
      rw [← hread, ← provides_of_none σ.state htext] at hok
      rw [apply_bind, hvalue] at h
      cases r with
      | error d =>
        cases h
        rw [List.takeWhile_cons_of_neg (by rw [← hok]; exact Bool.false_ne_true)]
        simp
      | ok v =>
        rw [List.takeWhile_cons_of_pos hok.symm, List.forall_mem_cons, ih hroom h]
        simp [htext]
    | some text =>
      obtain ⟨index, hindex, hliteral⟩ := ClassFile.literal_of_text? htext
      rw [hindex, Option.all_some, hliteral] at hread
      have hprovides := provides_of_some (s := σ.state) htext hread
      rw [initialValue_of_text htext, bind_assoc] at h
      -- a new text stays behind if there is an array for it, whether its string can be made or not
      have hnew (hget : σ.state.strings.get? text = none)
          (hgrants : σ.state.host.Grants (Text.unitCount text)) :
          ¬∀ g ∈ (f :: rest).takeWhile (σ.state.provides c), ∀ other, c.text? g = some other →
            σ.state.strings.contains other := by
        rw [List.takeWhile_cons_of_pos (hprovides.2 (.inr hgrants)), List.forall_mem_cons]
        rintro ⟨hall, -⟩
        simpa [Table.contains, hget] using hall text htext
      rcases apply_bind_error_iff.1 h with hintern | ⟨p, ρ, hintern, hrest⟩
      · obtain ⟨ρ, hinterns, rfl⟩ := internString_interns hintern
        have hsame := hinterns.state_eq_iff
        rw [or_iff_right hroom] at hsame
        cases hinterns with
        | refused hget hfail =>
          have hno : ¬σ.state.host.Grants (Text.unitCount text) := hfail.resolve_left hroom
          have hstops : ¬σ.state.provides c f := by
            rw [hprovides]
            exact not_or_intro (by simp [Table.contains, hget]) hno
          rw [List.takeWhile_cons_of_neg hstops]
          simp
        | half hget _ hgrants =>
          exact iff_of_false (fun heq => hsame.1 heq hgrants) (hnew hget hgrants)
        | bare hget _ _ hfits =>
          have hgrants := (Host.fits_iff.1 hfits).2
          exact iff_of_false (fun heq => hsame.1 heq hgrants) (hnew hget hgrants)
      · rw [pure_bind] at hrest
        obtain ⟨π, hinterns, rfl⟩ := internString_interns hintern
        cases hinterns with
        | known hget =>
          have hknown : σ.state.strings.contains text := by simp [Table.contains, hget]
          have hgoes := hprovides.2 (.inl hknown)
          have hsame := ih (σ := { σ with requests := _ :: σ.requests }) hroom hrest
          rw [List.takeWhile_cons_of_pos hgoes, List.forall_mem_cons]
          simpa [htext, hknown] using hsame
        | made hget _ _ hfits =>
          refine iff_of_false (fun heq => ?_) (hnew hget (Host.fits_iff.1 hfits).2)
          have hgained := (initialValues_gainsObjects hrest).literals text _
            (by simp [Table.get?_insert]; rfl)
          rw [heq, hget] at hgained
          cases hgained

theorem completeFrame_error {result : Option Value}
    (h : (completeFrame result).apply σ = (.error e, τ)) :
    (σ.state.stack = [] ∧ τ = σ) ∨ ∃ f caller rest, σ.state.stack = f :: caller :: rest ∧
      τ = { σ with state := { σ.state with
        stack := caller :: rest
        statics := f.signature.finish σ.state.statics } } := by
  match hstack : σ.state.stack with
  | [] =>
    rw [apply_completeFrame_nil result hstack] at h
    cases h
    exact .inl ⟨rfl, rfl⟩
  | [f] =>
    rw [apply_completeFrame_root result hstack] at h
    cases h
  | f :: caller :: rest =>
    rw [apply_completeFrame result hstack] at h
    dsimp only at h
    split at h
    · cases h
    · cases h
      exact .inr ⟨f, caller, rest, rfl, rfl⟩

/-- The entry of a class that could not be created leaves literals behind and the objects they are
made of. -/
theorem createKlass_leaves {className : String}
    (h : (createKlass className).apply σ = (.error e, τ)) :
    GainsObjects σ.state τ.state ∧
      (τ.state = σ.state ↔ (Primitive.createKlass className).Spares σ.state) := by
  have hspared (hspares : (Primitive.createKlass className).Spares σ.state) :
      GainsObjects σ.state σ.state ∧
        (σ.state = σ.state ↔ (Primitive.createKlass className).Spares σ.state) :=
    ⟨.refl _, iff_of_true rfl hspares⟩
  rw [createKlass, apply_state_bind] at h
  split at h
  · cases h
  rcases apply_lift_bind_error_iff.1 h with ⟨hfind, rfl⟩ | ⟨c, hfind, h⟩
  · obtain ⟨d, hd, -⟩ := except_mapError_error_iff.1 hfind
    refine hspared (.inr fun c hget => ?_)
    cases hget.symm.trans (Hierarchy.find_error_iff.1 hd).1
  have hget := Hierarchy.find_ok_iff.1 (except_mapError_ok_iff.1 hfind)
  by_cases hfull : σ.state.isFull
  · rw [State.checkCapacity, if_pos hfull] at h
    cases h
    exact hspared (.inl hfull)
  rw [State.checkCapacity, if_neg hfull] at h
  rcases apply_lift_bind_error_iff.1 h with ⟨hcapacity, -⟩ | ⟨_, -, h⟩
  · cases hcapacity
  rcases apply_bind_error_iff.1 h with hvalues | ⟨values, ρ, -, h⟩
  · refine ⟨initialValues_gainsObjects hvalues, ?_⟩
    rw [initialValues_state_eq_iff hfull hvalues, Primitive.Spares]
    simp only [hfull, hget, Option.some.injEq, forall_eq', Bool.false_eq_true, false_or]
  · cases h

theorem internString_leaves {text : String} (h : (internString text).apply σ = (.error e, τ)) :
    (Primitive.internString text).Leaves σ.state τ.state ∧
      (τ.state = σ.state ↔ (Primitive.internString text).Spares σ.state) := by
  obtain ⟨ρ, hinterns, rfl⟩ := internString_interns h
  refine ⟨?_, hinterns.state_eq_iff⟩
  cases hinterns with
  | refused => exact .inl rfl
  | half => exact .inr (.inl rfl)
  | bare => exact .inr (.inr ⟨_, rfl⟩)

theorem completeFrame_leaves {result : Option Value}
    (h : (completeFrame result).apply σ = (.error e, τ)) :
    (Primitive.completeFrame result).Leaves σ.state τ.state ∧
      (τ.state = σ.state ↔ σ.state.stack = []) := by
  rcases completeFrame_error h with ⟨hstack, rfl⟩ | ⟨f, caller, rest, hstack, rfl⟩
  · exact ⟨.inl rfl, iff_of_true rfl hstack⟩
  refine ⟨.inr ⟨f, caller, rest, hstack, rfl⟩, iff_of_false (fun hsame => ?_) (by simp [hstack])⟩
  have hlength := congrArg (·.stack.length) hsame
  simp [hstack] at hlength

end Exec

namespace Primitive

open Exec

/-- **What a failed operation leaves behind.** Each operation on a state leaves it as it was if it
fails, with three exceptions. A literal may leave its characters, and with them a string that has no
place for them. The entry of a class may leave objects and literals. A return has popped the frame
and completed its class initialization. They leave nothing exactly if, for a literal, the heap
was full or there was no array for the characters; for an entry, the heap was full or there was no
new text in front of the first field that cannot be read or has no array for its text; and for a
return, there was no frame. -/
theorem leaves_of_fails (p : Primitive) (h : p.Fails σ e τ) :
    p.Leaves σ.state τ.state ∧ (τ.state = σ.state ↔ p.Spares σ.state) := by
  have hatomic {α : Type} {x : Exec Fault α} (hx : Atomic x) (hrun : x.apply σ = (.error e, τ)) :
      τ.state = σ.state ∧ (τ.state = σ.state ↔ True) := by
    rw [hx _ _ _ hrun]
    exact ⟨rfl, iff_of_true rfl trivial⟩
  cases p with
  | createInstance className => exact hatomic (createInstance_atomic className) h
  | createThrowable className => exact hatomic (createThrowable_atomic className) h
  | createArray component length => exact hatomic (createArray_atomic component length) h
  | internString text => exact internString_leaves h
  | createKlass className => exact createKlass_leaves h
  | setField ref field v => exact hatomic (updateObject_atomic ref _) h
  | setElement ref index v => exact hatomic (updateObject_atomic ref _) h
  | setStatic className field v => exact hatomic (setStatic_atomic className field v) h
  | setKlassStatus className status => exact hatomic (setKlassStatus_atomic className status) h
  | assumeNull ref => exact hatomic (assumeNull_atomic ref) h
  | assumeAliases ref position => exact hatomic (assumeAliases_atomic ref position) h
  | assumeExpands ref className => exact hatomic (assumeExpands_atomic ref className) h
  | pushFrame signature isRoot offset args =>
    exact hatomic (pushFrame_atomic signature isRoot offset args) h
  | popOperands count => exact hatomic (updateFrame_atomic _) h
  | completeFrame result => exact completeFrame_leaves h

/-- There is room for one object, and a text takes two. -/
def crowded : Session :=
  .start (.create ([Bootstrap.object.build, Bootstrap.string.build, Session.banner].foldl
    Hierarchy.add .empty) (some 1) .ample)

/-- There can be arrays of four elements at most. -/
def cramped : Session := .start { crowded.state with heapLimit := none, host := ⟨(· ≤ 4)⟩ }

/-- The characters of the text have been made when there is no room for its string. If there is no
array for them, nothing has been made. -/
theorem leaves_of_fails_crowded :
    (∃ τ, (createKlass "Banner").Fails crowded .heapMemoryExhausted τ ∧
      crowded.state.GainsObjects τ.state ∧ τ.state ≠ crowded.state) ∧
    ∃ τ, (createKlass "Banner").Fails cramped .heapMemoryExhausted τ ∧
      τ.state = cramped.state := by
  have hget : crowded.state.hierarchy.get? "Banner" = some Session.banner := by decide +kernel
  constructor
  · have hrun : ((Exec.createKlass "Banner").apply crowded).1 = .error .heapMemoryExhausted := by
      decide +kernel
    obtain ⟨τ, hfails⟩ : ∃ τ, (createKlass "Banner").Fails crowded .heapMemoryExhausted τ :=
      ⟨_, apply_of_fst hrun⟩
    obtain ⟨hleaves, hsame⟩ := leaves_of_fails (createKlass "Banner") hfails
    refine ⟨τ, hfails, hleaves, fun heq => ?_⟩
    rcases hsame.1 heq with hfull | hknown
    · exact absurd hfull (by decide)
    · have htext := hknown Session.banner hget ⟨0x0018, "TEXT", "Ljava/lang/String;", some 2⟩
        (by decide +kernel) "welcome" (by decide +kernel)
      exact absurd htext (by decide)
  · have hrun : ((Exec.createKlass "Banner").apply cramped).1 = .error .heapMemoryExhausted := by
      decide +kernel
    obtain ⟨τ, hfails⟩ : ∃ τ, (createKlass "Banner").Fails cramped .heapMemoryExhausted τ :=
      ⟨_, apply_of_fst hrun⟩
    obtain ⟨-, hsame⟩ := leaves_of_fails (createKlass "Banner") hfails
    refine ⟨τ, hfails, hsame.2 (.inr fun c hc f hf => ?_)⟩
    obtain rfl : Session.banner = c := Option.some.inj (hget.symm.trans hc)
    have hstops : Session.banner.staticFields.takeWhile (cramped.state.provides Session.banner) =
      [] := by decide +kernel
    rw [hstops] at hf
    cases hf

/-- A thread in which no frame can be resumed. -/
def stranded : Session :=
  .start { State.create .empty none .ample with stack := [strayFrame, strayFrame] }

/-- A literal, an entry and a return that fail between two changes. -/
theorem fails_midway :
    (∃ τ, (internString "welcome").Fails crowded .heapMemoryExhausted τ ∧
      τ.state ≠ crowded.state) ∧
    (∃ τ, (createKlass "Banner").Fails crowded .heapMemoryExhausted τ ∧
      τ.state ≠ crowded.state) ∧
    ∃ τ, (completeFrame none).Fails stranded
        (.invalidProgramCounter (.initializer objectClass) 0) τ ∧
      τ.state ≠ stranded.state := by
  have hstring : ((Exec.internString "welcome").apply crowded).1 = .error .heapMemoryExhausted ∧
      ((Exec.internString "welcome").apply crowded).2.state.heap.size ≠
        crowded.state.heap.size := by decide +kernel
  have hentry : ((Exec.createKlass "Banner").apply crowded).1 = .error .heapMemoryExhausted ∧
      ((Exec.createKlass "Banner").apply crowded).2.state.heap.size ≠
        crowded.state.heap.size := by decide +kernel
  have hframe : ((Exec.completeFrame none).apply stranded).1 =
        .error (.invalidProgramCounter (.initializer objectClass) 0) ∧
      ((Exec.completeFrame none).apply stranded).2.state.stack.length ≠
        stranded.state.stack.length := by decide +kernel
  exact ⟨⟨_, apply_of_fst hstring.1, fun heq => hstring.2 (congrArg (·.heap.size) heq)⟩,
    ⟨_, apply_of_fst hentry.1, fun heq => hentry.2 (congrArg (·.heap.size) heq)⟩,
    ⟨_, apply_of_fst hframe.1, fun heq => hframe.2 (congrArg (·.stack.length) heq)⟩⟩

end Primitive

end SymbolicBytecode

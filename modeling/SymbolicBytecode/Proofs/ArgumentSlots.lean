import Mathlib
import SymbolicBytecode.Proofs.Frames

/-!
# The slots of the arguments

A frame begins with the arguments of the call in its local variables, one behind the other, where a
wide one takes two slots. `Arranged` says what the local variables are then, slot by slot, and
`FirstUnfit` which argument is in the way if there are too few of them. These decide what becomes of
a new frame: there is only one arrangement, and there is none just if some argument does not fit.
-/
namespace SymbolicBytecode

/-- The numbers of 64 bits, and the symbols that stand for one. -/
inductive Value.Wide : Value → Prop
  | long (n : Int64) : Wide (.long n)
  | double (x : Binary64) : Wide (.double x)
  | symbol {s : Symbol} (htype : s.type = .long ∨ s.type = .double) : Wide (.symbol s)

theorem FieldType.isWide_iff (t : FieldType) : t.isWide ↔ t = .long ∨ t = .double := by
  cases t <;> simp [isWide]

theorem Value.isWide_iff (v : Value) : v.isWide ↔ v.Wide := by
  constructor
  · intro h
    cases v with
    | long n => exact .long n
    | double x => exact .double x
    | symbol s => exact .symbol (s.type.isWide_iff.1 h)
    | int | float | reference | null => cases h
  · rintro (_ | _ | htype)
    · rfl
    · rfl
    · exact (FieldType.isWide_iff _).2 htype

instance : DecidablePred Value.Wide := fun v => decidable_of_iff _ v.isWide_iff

theorem Value.slots_eq (v : Value) : v.slots = if v.Wide then 2 else 1 := by
  simp only [slots, isWide_iff]

namespace Frame

variable {signature : Signature} {owner : ClassFile} {m : Method} {code : Code}
variable {args : List Value} {v : Value} {locals : List (Option Value)} {slot room i j : Nat}

/-- Local variables that hold the arguments, each behind those before it, and nothing else. -/
structure Arranged (args : List Value) (room : Nat) (locals : List (Option Value)) : Prop where
  length_eq : locals.length = room
  argument : ∀ i v, args[i]? = some v → locals[argumentSlot args i]? = some (some v)
  /-- The other slot of a wide argument is there, and is empty. -/
  half : ∀ i v, args[i]? = some v → v.Wide → locals[argumentSlot args i + 1]? = some none
  vacant : ∀ k < room, (∀ i < args.length, k ≠ argumentSlot args i) → locals[k]? = some none

/-- The argument at a position is the first one that would need a slot behind the last. -/
structure FirstUnfit (args : List Value) (room i : Nat) : Prop where
  unfit : ∃ v, args[i]? = some v ∧ room < argumentSlot args i + v.slots
  before : ∀ j v, j < i → args[j]? = some v → argumentSlot args j + v.slots ≤ room

/-- A frame at the start of its code. -/
def entering (signature : Signature) (owner : ClassFile) (code : Code)
    (locals : List (Option Value)) : Frame :=
  { signature, owner, code := code.bytes, handlers := code.handlers, pc := 0, returnPc := 0,
    locals, operands := [] }

section Slots

@[simp] theorem argumentSlot_zero (args : List Value) : argumentSlot args 0 = 0 := rfl

@[simp] theorem argumentSlot_cons_succ (a : Value) (rest : List Value) (i : Nat) :
    argumentSlot (a :: rest) (i + 1) = a.slots + argumentSlot rest i := by
  simp [argumentSlot]

theorem argumentSlot_length (args : List Value) :
    argumentSlot args args.length = (args.map Value.slots).sum := by
  simp [argumentSlot]

theorem argumentSlot_succ (hi : args[i]? = some v) :
    argumentSlot args (i + 1) = argumentSlot args i + v.slots := by
  simp [argumentSlot, List.take_add_one, hi]

theorem argumentSlot_mono (args : List Value) (hij : i ≤ j) :
    argumentSlot args i ≤ argumentSlot args j :=
  ((List.take_sublist_take_left hij).map Value.slots).sum_le_sum (by simp)

/-- An argument ends before those behind it begin. -/
theorem argumentSlot_add_le (hi : args[i]? = some v) (hij : i < j) :
    argumentSlot args i + v.slots ≤ argumentSlot args j :=
  argumentSlot_succ hi ▸ argumentSlot_mono args hij

/-- No argument is in the other slot of a wide one. -/
theorem argumentSlot_ne_half (hi : args[i]? = some v) (hwide : v.Wide) (j : Nat) :
    argumentSlot args i + 1 ≠ argumentSlot args j := by
  have hslots : v.slots = 2 := by rw [v.slots_eq, if_pos hwide]
  rcases Nat.lt_or_ge i j with hij | hij
  · have := argumentSlot_add_le hi hij
    omega
  · have := argumentSlot_mono args hij
    omega

end Slots

namespace Arranged

/-- An arrangement has room for all of its arguments. -/
theorem fits (h : Arranged args room locals) : (args.map Value.slots).sum ≤ room := by
  rw [← argumentSlot_length]
  cases hlength : args.length with
  | zero => exact Nat.zero_le _
  | succ n =>
    have hinside {k : Nat} {x : Option Value} (hk : locals[k]? = some x) : k < room :=
      h.length_eq ▸ (List.getElem?_eq_some_iff.1 hk).1
    -- the last argument is inside, and so is the other half of it if there is one
    obtain ⟨v, hv⟩ : ∃ v, args[n]? = some v := ⟨_, List.getElem?_eq_getElem (by omega)⟩
    rw [argumentSlot_succ hv, v.slots_eq]
    split
    · next hwide => exact hinside (h.half n v hv hwide)
    · exact hinside (h.argument n v hv)

theorem unique {other : List (Option Value)} (h : Arranged args room locals)
    (hother : Arranged args room other) : locals = other := by
  apply List.ext_getElem?
  intro k
  by_cases hk : k < room
  · by_cases hargument : ∃ i < args.length, k = argumentSlot args i
    · obtain ⟨i, hi, rfl⟩ := hargument
      have hv := List.getElem?_eq_getElem hi
      rw [h.argument i _ hv, hother.argument i _ hv]
    · push Not at hargument
      rw [h.vacant k hk hargument, hother.vacant k hk hargument]
  · rw [List.getElem?_eq_none (by rw [h.length_eq]; omega),
      List.getElem?_eq_none (by rw [hother.length_eq]; omega)]

end Arranged

section Layout

theorem firstUnfit_cons_zero {a : Value} {rest : List Value} :
    FirstUnfit (a :: rest) room 0 ↔ room < a.slots := by
  constructor
  · rintro ⟨⟨v, hv, hunfit⟩, -⟩
    cases hv
    simpa using hunfit
  · intro hunfit
    exact ⟨⟨a, rfl, by simpa using hunfit⟩, fun j v hj => absurd hj (Nat.not_lt_zero j)⟩

theorem firstUnfit_cons_succ {a : Value} {rest : List Value} :
    FirstUnfit (a :: rest) room (i + 1) ↔
      a.slots ≤ room ∧ FirstUnfit rest (room - a.slots) i := by
  constructor
  · rintro ⟨⟨v, hv, hunfit⟩, hbefore⟩
    have ha : a.slots ≤ room := by simpa using hbefore 0 a (Nat.succ_pos i) rfl
    rw [argumentSlot_cons_succ] at hunfit
    refine ⟨ha, ⟨v, hv, by omega⟩, fun j w hj hw => ?_⟩
    have hfits := hbefore (j + 1) w (Nat.succ_lt_succ hj) hw
    rw [argumentSlot_cons_succ] at hfits
    omega
  · rintro ⟨ha, ⟨v, hv, hunfit⟩, hbefore⟩
    refine ⟨⟨v, hv, ?_⟩, fun j w hj hw => ?_⟩
    · rw [argumentSlot_cons_succ]
      omega
    · cases j with
      | zero =>
        cases hw
        simpa using ha
      | succ j =>
        have hfits := hbefore j w (Nat.lt_of_succ_lt_succ hj) hw
        rw [argumentSlot_cons_succ]
        omega

theorem exists_layOutLocals_iff (slot : Nat) :
    (∃ locals, layOutLocals slot room args = .ok locals) ↔
      (args.map Value.slots).sum ≤ room := by
  induction args generalizing slot room with
  | nil => simp [layOutLocals]
  | cons a rest ih =>
    rw [layOutLocals, List.map_cons, List.sum_cons]
    split
    · next ha =>
      have hrest : a.slots + (rest.map Value.slots).sum ≤ room ↔
          (rest.map Value.slots).sum ≤ room - a.slots := by omega
      rw [hrest, ← ih (slot + a.slots)]
      simp [except_bind_ok_iff, pure, Except.pure]
    · next ha => exact iff_of_false (by simp) (by omega)

theorem layOutLocals_error_iff {s : Nat} :
    layOutLocals slot room args = .error s ↔
      ∃ i, FirstUnfit args room i ∧ s = slot + argumentSlot args i := by
  induction args generalizing slot room with
  | nil =>
    constructor
    · simp [layOutLocals]
    · rintro ⟨i, ⟨⟨v, hv, -⟩, -⟩, -⟩
      simp at hv
  | cons a rest ih =>
    -- either the first argument does not fit, or it is one of the others in the room that is left
    rw [layOutLocals, ← Nat.or_exists_add_one]
    simp only [firstUnfit_cons_zero, firstUnfit_cons_succ, argumentSlot_zero,
      argumentSlot_cons_succ]
    split
    · next ha =>
      rw [except_bind_error_iff, ih]
      simp [pure, Except.pure, ha, Nat.add_assoc, Nat.not_lt.2 ha]
    · next ha => simp [ha, Nat.lt_of_not_le ha, eq_comm]

theorem arranged_of_layOutLocals (h : layOutLocals slot room args = .ok locals) :
    Arranged args room locals := by
  have hlength := length_layOutLocals h
  have hget := getElem?_layOutLocals h
  have hvacant : ∀ k < room, (∀ i < args.length, k ≠ argumentSlot args i) →
      locals[k]? = some none := by
    intro k hk hother
    rw [← hlength] at hk
    cases hslot : locals[k] with
    | none => rw [List.getElem?_eq_getElem hk, hslot]
    | some v =>
      obtain ⟨i, hi, hkey⟩ := (hget k v).1 (by rw [List.getElem?_eq_getElem hk, hslot])
      exact absurd hkey (hother i (List.getElem?_eq_some_iff.1 hi).1)
  refine ⟨hlength, fun i v hi => (hget _ v).2 ⟨i, hi, rfl⟩, fun i v hi hwide => ?_, hvacant⟩
  -- no argument is in the other half, and it is inside because all of them fit
  refine hvacant _ ?_ fun j _ => argumentSlot_ne_half hi hwide j
  have hfits := (exists_layOutLocals_iff slot).1 ⟨locals, h⟩
  have hend := argumentSlot_add_le hi (List.getElem?_eq_some_iff.1 hi).1
  rw [argumentSlot_length, v.slots_eq, if_pos hwide] at hend
  omega

theorem layOutLocals_ok_iff :
    layOutLocals slot room args = .ok locals ↔ Arranged args room locals := by
  refine ⟨arranged_of_layOutLocals, fun h => ?_⟩
  obtain ⟨other, hother⟩ := (exists_layOutLocals_iff slot).2 h.fits
  rw [hother, (arranged_of_layOutLocals hother).unique h]

end Layout

section Creation

/-- For a method with code, all depends on its local variables. -/
theorem create_of_code (hcode : m.code = some code) :
    create signature owner m args =
      (layOutLocals 0 code.maxLocals.toNat args).mapError (.invalidSlot signature) >>=
        fun locals => .ok (entering signature owner code locals) := by
  rw [create, hcode]
  dsimp only
  cases layOutLocals 0 code.maxLocals.toNat args <;> rfl

theorem create_ok_iff (hcode : m.code = some code) {f : Frame} :
    create signature owner m args = .ok f ↔
      ∃ locals, Arranged args code.maxLocals.toNat locals ∧
        f = entering signature owner code locals := by
  rw [create_of_code hcode, except_bind_ok_iff]
  simp [except_mapError_ok_iff, layOutLocals_ok_iff, eq_comm (a := f)]

theorem create_error_iff (hcode : m.code = some code) {e : Fault} :
    create signature owner m args = .error e ↔
      ∃ i, FirstUnfit args code.maxLocals.toNat i ∧
        e = .invalidSlot signature (argumentSlot args i) := by
  rw [create_of_code hcode, except_bind_error_iff]
  simp [except_mapError_error_iff, layOutLocals_error_iff, eq_comm (a := e)]

/-- **How a frame begins.** A wide value takes two slots, and any other takes one. A frame for a
method with code is made just if its local variables are enough for what the arguments take
together. It is then at the start of the code, each argument is in the slot behind those before it,
and all other slots are empty, which settles what the frame is. Otherwise the slot at fault is the
one at which the first argument that does not fit would begin. -/
theorem create_arranges (signature : Signature) (owner : ClassFile) (args : List Value)
    (hcode : m.code = some code) :
    (∀ v : Value, v.slots = if v.Wide then 2 else 1) ∧
    ((∃ f, create signature owner m args = .ok f) ↔
      (args.map Value.slots).sum ≤ code.maxLocals.toNat) ∧
    (∀ f, create signature owner m args = .ok f ↔
      ∃ locals, Arranged args code.maxLocals.toNat locals ∧
        f = entering signature owner code locals) ∧
    ∀ e, create signature owner m args = .error e ↔
      ∃ i, FirstUnfit args code.maxLocals.toNat i ∧
        e = .invalidSlot signature (argumentSlot args i) := by
  refine ⟨Value.slots_eq, ⟨?_, fun hfits => ?_⟩, fun f => create_ok_iff hcode,
    fun e => create_error_iff hcode⟩
  · rintro ⟨f, hf⟩
    obtain ⟨locals, harranged, -⟩ := (create_ok_iff hcode).1 hf
    exact harranged.fits
  · obtain ⟨locals, hlocals⟩ := (exists_layOutLocals_iff 0).2 hfits
    exact ⟨_, (create_ok_iff hcode).2 ⟨locals, arranged_of_layOutLocals hlocals, rfl⟩⟩

/-- A method whose parameters are wide, narrow and wide. -/
def mixedSignature : Signature := ⟨objectClass, "m", "(DIJ)V"⟩

/-- Arguments for it, the first one unknown. -/
def mixedArguments : List Value := [.symbol ⟨0, .double, "d"⟩, .int 7, .long 1]

def mixedCode (maxLocals : UInt16) : Code := ⟨0, maxLocals, [0xb1], []⟩

def mixedMethod (maxLocals : UInt16) : Method :=
  ⟨0x0008, mixedSignature.name, mixedSignature.descriptor, some (mixedCode maxLocals)⟩

/-- With five local variables the arguments just fit. With four there is one for the last argument
to begin in, but none for its other half. -/
theorem create_mixedArguments :
    (mixedMethod 5).code = some (mixedCode 5) ∧ (mixedMethod 4).code = some (mixedCode 4) ∧
    create mixedSignature Bootstrap.object.build (mixedMethod 5) mixedArguments =
      .ok (entering mixedSignature Bootstrap.object.build (mixedCode 5)
        [some (.symbol ⟨0, .double, "d"⟩), none, some (.int 7), some (.long 1), none]) ∧
    create mixedSignature Bootstrap.object.build (mixedMethod 4) mixedArguments =
      .error (.invalidSlot mixedSignature 3) := by
  have hcode (maxLocals : UInt16) : (mixedMethod maxLocals).code = some (mixedCode maxLocals) := rfl
  obtain ⟨-, -, hfits, -⟩ :=
    create_arranges mixedSignature Bootstrap.object.build mixedArguments (hcode 5)
  obtain ⟨-, -, -, hunfit⟩ :=
    create_arranges mixedSignature Bootstrap.object.build mixedArguments (hcode 4)
  refine ⟨hcode 5, hcode 4, (hfits _).2 ⟨_, ?_, rfl⟩,
    (hunfit _).2 ⟨2, ⟨⟨.long 1, rfl, ?_⟩, ?_⟩, rfl⟩⟩
  · exact arranged_of_layOutLocals (show layOutLocals 0 5 mixedArguments = .ok _ from rfl)
  · decide
  · intro j v hj hv
    interval_cases j <;> cases hv <;> decide

end Creation

end Frame

end SymbolicBytecode

import Mathlib
import SymbolicBytecode.Proofs.Sequencing
import SymbolicBytecode.State.Allocation

/-!
# String objects

The string object of a new literal is made in steps: an array, the characters in it one after the
other, an instance of the string class, and its reference to the array. Each step may fail and
leaves what was made before it; `Exec.Interns` says how far it came.

The length of an array is a signed number of 32 bits. There is no array for the characters of a text
of 2^31 units or more: its length either is negative or stands for a shorter array, which does not
take all of the characters.
-/
namespace SymbolicBytecode

namespace Text

/-- The units of the text can be counted by the length of an array. -/
def IsShort (text : String) : Prop := (Utf16.encode text).length < 2 ^ 31

/-- The length of the array that is made for the units of the text. -/
def unitCount (text : String) : Int32 := Int32.ofNat (Utf16.encode text).length

variable {text : String}

theorem toInt_unitCount (text : String) :
    (unitCount text).toInt = Int.bmod (Utf16.encode text).length (2 ^ 32) :=
  Int32.toInt_ofNat'

theorem toNat_unitCount_lt (text : String) : (unitCount text).toInt.toNat < 2 ^ 31 := by
  have := (unitCount text).toInt_lt
  omega

theorem unitCount_nonneg (hshort : IsShort text) : 0 ≤ unitCount text :=
  Int32.zero_le_ofNat_of_lt hshort

theorem toNat_unitCount (hshort : IsShort text) :
    (unitCount text).toInt.toNat = (Utf16.encode text).length := by
  rw [unitCount, Int32.toInt_ofNat_of_lt hshort, Int.toNat_natCast]

theorem toNat_unitCount_le (text : String) :
    (unitCount text).toInt.toNat ≤ (Utf16.encode text).length := by
  rw [toInt_unitCount, Int.bmod_def]
  split <;> omega

theorem isShort_iff_toNat_unitCount :
    IsShort text ↔ (Utf16.encode text).length ≤ (unitCount text).toInt.toNat := by
  refine ⟨fun hshort => (toNat_unitCount hshort).ge, fun hle => ?_⟩
  exact hle.trans_lt (toNat_unitCount_lt text)

end Text

open Text (IsShort unitCount)

namespace Host

/-- There can be an array of the length. -/
def Grants (host : Host) (length : Int32) : Prop := 0 ≤ length ∧ host.holds length.toInt.toNat

instance (host : Host) : DecidablePred host.Grants :=
  fun _ => inferInstanceAs (Decidable (_ ∧ _))

/-- There can be an array for the characters of the text. -/
def Fits (host : Host) (text : String) : Prop :=
  IsShort text ∧ host.holds (Text.Utf16.encode text).length

theorem fits_iff {host : Host} {text : String} :
    host.Fits text ↔ IsShort text ∧ host.Grants (unitCount text) := by
  refine and_congr_right fun hshort => ?_
  rw [Grants, Text.toNat_unitCount hshort, and_iff_right (Text.unitCount_nonneg hshort)]

end Host

/-- The fault of a text that has too many units for an array. -/
inductive Fault.IsOverlong : Fault → Prop
  | negative (length : Int32) : IsOverlong (.negativeArraySize length)
  | beyond (index : Int32) (length : Nat) : IsOverlong (.arrayIndexOutOfBounds index length)

namespace HeapObject

variable {host : Host} {component : FieldType} {length : Int32} {e : Fault}

theorem newArray_of_grants (hgrants : host.Grants length) :
    newArray host component length =
      .ok (.array component (Array.replicate length.toInt.toNat component.defaultValue)) := by
  rw [newArray, if_neg (Int32.not_lt.2 hgrants.1), if_pos hgrants.2]

theorem newArray_of_not_grants (hrefused : ¬host.Grants length) :
    newArray host component length =
      .error (if length < 0 then .negativeArraySize length else .heapMemoryExhausted) := by
  rw [newArray]
  split
  · rfl
  · next hlength =>
    have hholds : ¬host.holds length.toInt.toNat :=
      fun hholds => hrefused ⟨Int32.not_lt.1 hlength, hholds⟩
    rw [if_neg hholds]

theorem checkIndex_ofNat {length i : Nat} (hlength : length ≤ 2 ^ 31) (hi : i < length) :
    checkIndex length (Int32.ofNat i) = .ok i := by
  have htoInt : (Int32.ofNat i).toInt = i := Int32.toInt_ofNat_of_lt (by omega)
  have hneg : ¬Int32.ofNat i < 0 := Int32.not_lt.2 (Int32.zero_le_ofNat_of_lt (by omega))
  simp [checkIndex, hneg, htoInt, hi]

theorem checkIndex_ofNat_length {length : Nat} (hlength : length < 2 ^ 31) :
    checkIndex length (Int32.ofNat length) =
      .error (.arrayIndexOutOfBounds (Int32.ofNat length) length) := by
  simp [checkIndex, Int32.toInt_ofNat_of_lt hlength]

end HeapObject

namespace Heap

variable {heap : Heap} {position : Nat}

theorem set_set (heap : Heap) (position : Nat) (o o' : HeapObject) :
    (heap.set position o).set position o' = heap.set position o' := by
  simp [set]

theorem set_of_get? {o : HeapObject} (hget : heap.get? position = some o) :
    heap.set position o = heap := by
  obtain ⟨hlt, rfl⟩ := Array.getElem?_eq_some_iff.1 hget
  simp [set, Array.setIfInBounds, hlt]

theorem set_add (heap : Heap) (o o' : HeapObject) :
    (heap.add o).set heap.size o' = heap.add o' := by
  simp [set, add, size, Array.setIfInBounds, Array.set_push]

theorem get?_set_self (o : HeapObject) {o' : HeapObject} (hget : heap.get? position = some o') :
    (heap.set position o).get? position = some o := by
  obtain ⟨hlt, -⟩ := Array.getElem?_eq_some_iff.1 hget
  simp [set, get?, hlt]

end Heap

/-- Strings have a layout, and it has a place for the characters. -/
def Hierarchy.MakesStrings (h : Hierarchy) : Prop :=
  ∃ fields, h.instanceFields stringClass = .ok fields ∧ fields.contains "value"

/-- The session with one more object in the heap. -/
def Session.adding (σ : Session) (o : HeapObject) : Session :=
  { σ with state := { σ.state with heap := σ.state.heap.add o } }

theorem Session.occupied_adding (σ : Session) (o : HeapObject) :
    (σ.adding o).state.occupied = σ.state.occupied + 1 := by
  simp only [State.occupied, adding, Heap.size_add]
  omega

namespace Exec

variable {σ τ : Session} {e : Fault}

section Objects

theorem apply_allocate (o : HeapObject) (σ : Session) :
    (allocate o).apply σ = (.ok σ.state.heap.size, σ.adding o) := rfl

theorem apply_allocateWithinLimit (o : HeapObject) (σ : Session) :
    (allocateWithinLimit o).apply σ =
      if σ.state.isFull then (.error .heapMemoryExhausted, σ)
      else (.ok σ.state.heap.size, σ.adding o) := by
  rw [allocateWithinLimit, apply_state_bind, apply_bind, apply_liftM, State.checkCapacity]
  by_cases hfull : σ.state.isFull
  · simp only [if_pos hfull]
  · simp only [if_neg hfull]
    rfl

theorem apply_blankInstance (className : String) (σ : Session) :
    (blankInstance className).apply σ =
      match σ.state.hierarchy.instanceFields className with
      | .ok fields => (.ok (.ofFields className fields), σ)
      | .error e => (.error (.link e), σ) := by
  rw [blankInstance, apply_state_bind, apply_bind, apply_liftM]
  cases σ.state.hierarchy.instanceFields className <;> rfl

theorem apply_createThrowable {className : String} {σ : Session} {fields : Table FieldType}
    (hfields : σ.state.hierarchy.instanceFields className = .ok fields) :
    (createThrowable className).apply σ =
      (.ok σ.state.heap.size, σ.adding (.ofFields className fields)) := by
  unfold createThrowable
  rw [apply_bind, apply_blankInstance, hfields]
  rfl

theorem apply_createInstance (className : String) (σ : Session) :
    (createInstance className).apply σ =
      match σ.state.hierarchy.instanceFields className with
      | .ok fields => (allocateWithinLimit (.ofFields className fields)).apply σ
      | .error e => (.error (.link e), σ) := by
  unfold createInstance
  rw [apply_bind, apply_blankInstance]
  cases σ.state.hierarchy.instanceFields className <;> rfl

theorem apply_createArray (component : FieldType) (length : Int32) (σ : Session) :
    (createArray component length).apply σ =
      match HeapObject.newArray σ.state.host component length with
      | .ok o => (allocateWithinLimit o).apply σ
      | .error e => (.error e, σ) := by
  rw [createArray, apply_state_bind, apply_bind, apply_liftM]
  cases HeapObject.newArray σ.state.host component length <;> rfl

def updatedObject (s : State) (ref : Reference) (f : HeapObject → Except Fault HeapObject) :
    Except Fault (Nat × HeapObject) := do
  let p ← s.objectPosition ref
  let o ← s.heap.find p
  return (p, ← f o)

theorem apply_updateObject (ref : Reference) (f : HeapObject → Except Fault HeapObject)
    (σ : Session) :
    (updateObject ref f).apply σ =
      match updatedObject σ.state ref f with
      | .ok (p, o) =>
        (.ok (), { σ with state := { σ.state with heap := σ.state.heap.set p o } })
      | .error e => (.error e, σ) := by
  unfold updateObject updatedObject
  rw [apply_state_bind, apply_bind, apply_liftM]
  cases σ.state.objectPosition ref with
  | error e => rfl
  | ok p =>
    dsimp only
    rw [apply_bind, apply_liftM]
    cases hfind : σ.state.heap.find p with
    | error e => simp [bind, Except.bind, hfind]
    | ok o =>
      dsimp only
      rw [apply_bind, apply_liftM]
      cases hf : f o with
      | error e => simp [bind, Except.bind, hfind, hf]
      | ok o' => simp [bind, Except.bind, pure, Except.pure, hfind, hf]

theorem updatedObject_concrete {s : State} {p : Nat} {o : HeapObject}
    (hget : s.heap.get? p = some o) (f : HeapObject → Except Fault HeapObject) :
    updatedObject s (.concrete p) f = (f o).map (p, ·) := by
  cases hf : f o <;>
    simp [updatedObject, State.objectPosition, State.resolve?, Heap.find, hget, hf, bind,
      Except.bind, pure, Except.pure, Except.map]

/-- The field of an object that has just been made can be set just if its layout has it. -/
theorem updatedObject_added (s : State) (className field : String) (fields : Table FieldType)
    (v : Value) :
    updatedObject { s with heap := s.heap.add (.ofFields className fields) }
        (.concrete s.heap.size) (·.setField field v) =
      if fields.contains field then
        .ok (s.heap.size, .object className ((fields.map FieldType.defaultValue).insert field v))
      else .error (.noSuchField className field) := by
  have hget : (s.heap.add (.ofFields className fields)).get? s.heap.size =
      some (.object className (fields.map FieldType.defaultValue)) := by
    rw [Heap.get?_add, if_pos rfl, HeapObject.ofFields]
  have hcontains : (fields.map FieldType.defaultValue).contains field = fields.contains field := by
    simp [Table.contains]
  rw [updatedObject_concrete hget]
  cases hfield : fields.contains field <;> simp [HeapObject.setField, hcontains, hfield, Except.map]

end Objects

section Characters

/-- The values go to the elements from an index on as far as there are elements; a value that is
left over is a fault. -/
theorem apply_setElements (values : List Value) {p : Nat} {component : FieldType}
    {done rest : List Value}
    (hget : σ.state.heap.get? p = some (.array component (done ++ rest).toArray))
    (hlength : (done ++ rest).length < 2 ^ 31) :
    (setElements (.concrete p) done.length values).apply σ =
      (if values.length ≤ rest.length then .ok () else
          .error (.arrayIndexOutOfBounds (Int32.ofNat (done ++ rest).length)
            (done ++ rest).length),
        { σ with state := { σ.state with heap := σ.state.heap.set p (.array component
          (done ++ (values.take rest.length ++ rest.drop values.length)).toArray) } }) := by
  induction values generalizing σ done rest with
  | nil => simp [setElements, Heap.set_of_get? hget]
  | cons v values ih =>
    rw [setElements, apply_bind, setElement, apply_updateObject, updatedObject_concrete hget,
      HeapObject.setElement, List.size_toArray]
    cases rest with
    | nil =>
      rw [List.append_nil] at hget hlength ⊢
      rw [HeapObject.checkIndex_ofNat_length hlength]
      simp [bind, Except.bind, Except.map, Heap.set_of_get? hget]
    | cons w rest =>
      have hstored : (done ++ w :: rest).toArray.setIfInBounds done.length v =
          ((done ++ [v]) ++ rest).toArray := by
        simp
      have hsize : ((done ++ [v]) ++ rest).length = (done ++ w :: rest).length := by simp
      have hnext : (done ++ [v]).length = done.length + 1 := List.length_append
      rw [HeapObject.checkIndex_ofNat hlength.le (by simp)]
      dsimp only [bind, Except.bind, pure, Except.pure, Except.map]
      rw [hstored, ← hnext, ih (Heap.get?_set_self _ hget) (hsize ▸ hlength), hsize]
      simp [Heap.set_set]

/-- The array for the characters of a text. If it is too short for them, it has the first ones. -/
def charArray (text : String) : HeapObject :=
  .array .char (((Text.Utf16.encode text).map fun u => Value.int u.toUInt32.toInt32).take
    (unitCount text).toInt.toNat).toArray

theorem charArray_of_isShort {text : String} (hshort : IsShort text) :
    charArray text = .array .char
      ((Text.Utf16.encode text).map fun u => Value.int u.toUInt32.toInt32).toArray := by
  rw [charArray, Text.toNat_unitCount hshort, List.take_of_length_le (by simp)]

/-- What comes of the characters of a text, once there is an array for them. -/
theorem apply_setElements_units (text : String) (σ : Session) :
    let chars : HeapObject := .array .char
      (Array.replicate (unitCount text).toInt.toNat FieldType.char.defaultValue)
    ∃ r, (setElements (.concrete σ.state.heap.size) 0
        ((Text.Utf16.encode text).map fun u => .int u.toUInt32.toInt32)).apply (σ.adding chars) =
      (r, σ.adding (charArray text)) ∧
      (r = .ok () ∧ IsShort text ∨ ∃ e, r = .error e ∧ e.IsOverlong ∧ ¬IsShort text) := by
  intro chars
  let blank := List.replicate (unitCount text).toInt.toNat FieldType.char.defaultValue
  have hget : (σ.adding chars).state.heap.get? σ.state.heap.size =
      some (.array .char ([] ++ blank).toArray) := by
    simp only [Session.adding, Heap.get?_add, if_pos]
    simp [chars, blank]
  have hlength : blank.length = (unitCount text).toInt.toNat := List.length_replicate
  have hstored := apply_setElements
    ((Text.Utf16.encode text).map fun u => .int u.toUInt32.toInt32) hget
    (hlength ▸ Text.toNat_unitCount_lt text)
  -- No element is left as it was, since the array is not longer than the text.
  have hdrop : blank.drop (Text.Utf16.encode text).length = [] :=
    List.drop_eq_nil_iff.2 (hlength ▸ Text.toNat_unitCount_le text)
  rw [List.length_map, hlength, hdrop, List.append_nil] at hstored
  refine ⟨_, hstored.trans (Prod.ext rfl ?_), ?_⟩
  · simp only [Session.adding, Heap.set_add, charArray, List.nil_append]
  · have hiff := @Text.isShort_iff_toNat_unitCount text
    by_cases hshort : IsShort text
    · exact .inl ⟨if_pos (hiff.1 hshort), hshort⟩
    · exact .inr ⟨_, if_neg (mt hiff.2 hshort), .beyond _ _, hshort⟩

end Characters

section Literals

/-- The string object of a literal, with its characters at the given position. -/
def literalObject (fields : Table FieldType) (chars : Nat) : HeapObject :=
  .object stringClass
    ((fields.map FieldType.defaultValue).insert "value" (.reference (.concrete chars)))

/-- Why there is no string object for a text. -/
inductive LiteralFault (text : String) (h : Hierarchy) : Fault → Prop
  | exhausted : LiteralFault text h .heapMemoryExhausted
  | overlong {e : Fault} (hfault : e.IsOverlong) (hlong : ¬IsShort text) : LiteralFault text h e
  | unformed {e : Fault} (hstrings : ¬h.MakesStrings) : LiteralFault text h e

/-- How the making of a literal ends. -/
inductive Interns (text : String) (σ : Session) : Except Fault Nat → Session → Prop
  | known {p : Nat} (hget : σ.state.strings.get? text = some p) : Interns text σ (.ok p) σ
  /-- There is no array for the characters. -/
  | refused {e : Fault} (hnew : σ.state.strings.get? text = none)
      (hfail : σ.state.isFull ∨ ¬σ.state.host.Grants (unitCount text))
      (hfault : LiteralFault text σ.state.hierarchy e) : Interns text σ (.error e) σ
  /-- There are the characters, but no string for them. -/
  | half {e : Fault} (hnew : σ.state.strings.get? text = none) (hroom : ¬σ.state.isFull)
      (hgrants : σ.state.host.Grants (unitCount text))
      (hfail : (σ.adding (charArray text)).state.isFull ∨ ¬IsShort text ∨
        ¬σ.state.hierarchy.MakesStrings)
      (hfault : LiteralFault text σ.state.hierarchy e) :
      Interns text σ (.error e) (σ.adding (charArray text))
  /-- The string has no place for the characters. -/
  | bare {e : Fault} {fields : Table FieldType} (hnew : σ.state.strings.get? text = none)
      (hroom : ¬σ.state.isFull) (hroom' : ¬(σ.adding (charArray text)).state.isFull)
      (hfits : σ.state.host.Fits text) (hstrings : ¬σ.state.hierarchy.MakesStrings) :
      Interns text σ (.error e)
        ((σ.adding (charArray text)).adding (.ofFields stringClass fields))
  | made {fields : Table FieldType} (hnew : σ.state.strings.get? text = none)
      (hroom : ¬σ.state.isFull) (hroom' : ¬(σ.adding (charArray text)).state.isFull)
      (hfits : σ.state.host.Fits text) (hstrings : σ.state.hierarchy.MakesStrings) :
      Interns text σ (.ok (σ.state.heap.size + 1)) { σ with state := { σ.state with
        heap := ((σ.state.heap.add (charArray text)).add (.ofFields stringClass fields)).set
          (σ.state.heap.size + 1) (literalObject fields σ.state.heap.size)
        strings := σ.state.strings.insert text (σ.state.heap.size + 1) } }

variable {text : String} {r : Except Fault Nat}

theorem Interns.literalFault (h : Interns text σ (.error e) τ) :
    LiteralFault text σ.state.hierarchy e := by
  cases h with
  | refused _ _ hfault => exact hfault
  | half _ _ _ _ hfault => exact hfault
  | bare _ _ _ _ hstrings => exact .unformed hstrings

theorem makeString_interns (hnew : σ.state.strings.get? text = none)
    (h : (makeString text).apply σ = (r, τ)) : Interns text σ r τ := by
  rw [makeString, apply_bind, apply_createArray] at h
  by_cases hgrants : σ.state.host.Grants (unitCount text)
  swap
  · rw [← unitCount, HeapObject.newArray_of_not_grants hgrants] at h
    cases h
    refine .refused hnew (.inr hgrants) ?_
    split
    · next hnegative =>
      refine .overlong (.negative _) fun hshort => ?_
      exact Int32.not_lt.2 (Text.unitCount_nonneg hshort) hnegative
    · exact .exhausted
  rw [← unitCount, HeapObject.newArray_of_grants hgrants] at h
  dsimp only at h
  rw [apply_allocateWithinLimit] at h
  by_cases hfull : σ.state.isFull
  · rw [if_pos hfull] at h
    cases h
    exact .refused hnew (.inl hfull) .exhausted
  rw [if_neg hfull] at h
  dsimp only at h
  obtain ⟨stored, hstored, ⟨rfl, hshort⟩ | ⟨e, rfl, hoverlong, hlong⟩⟩ :=
    apply_setElements_units text σ
  swap
  · rw [apply_bind, hstored] at h
    cases h
    exact .half hnew hfull hgrants (.inr (.inl hlong)) (.overlong hoverlong hlong)
  have hfits : σ.state.host.Fits text := Host.fits_iff.2 ⟨hshort, hgrants⟩
  rw [apply_bind, hstored] at h
  dsimp only at h
  rw [apply_bind, apply_createInstance] at h
  cases hfields : (σ.adding (charArray text)).state.hierarchy.instanceFields stringClass with
  | error d =>
    have hstrings : ¬σ.state.hierarchy.MakesStrings := by
      rintro ⟨fields, hok, -⟩
      cases hok.symm.trans hfields
    rw [hfields] at h
    cases h
    exact .half hnew hfull hgrants (.inr (.inr hstrings)) (.unformed hstrings)
  | ok fields =>
    rw [hfields] at h
    dsimp only at h
    rw [apply_allocateWithinLimit] at h
    by_cases hfull' : (σ.adding (charArray text)).state.isFull
    · rw [if_pos hfull'] at h
      cases h
      exact .half hnew hfull hgrants (.inl hfull') .exhausted
    have hsize : (σ.adding (charArray text)).state.heap.size = σ.state.heap.size + 1 :=
      Heap.size_add _ _
    rw [if_neg hfull'] at h
    dsimp only at h
    rw [apply_bind, setField, apply_updateObject, Session.adding,
      updatedObject_added (σ.adding (charArray text)).state] at h
    by_cases hvalue : fields.contains "value"
    · rw [if_pos hvalue, hsize] at h
      cases h
      exact .made hnew hfull hfull' hfits ⟨fields, hfields, hvalue⟩
    · rw [if_neg hvalue] at h
      cases h
      refine .bare hnew hfull hfull' hfits ?_
      rintro ⟨fields', hok, hvalue'⟩
      cases hok.symm.trans hfields
      exact hvalue hvalue'

/-- A request for a literal is recorded, with what came of it. -/
theorem internString_interns (h : (internString text).apply σ = (r, τ)) :
    ∃ ρ, Interns text σ r ρ ∧
      τ = { ρ with requests := ⟨text, σ.state, r, ρ.state⟩ :: ρ.requests } := by
  rw [internString, apply_state_bind, apply_bind, apply_attempt] at h
  cases hget : σ.state.strings.get? text with
  | some p =>
    rw [hget] at h
    cases h
    exact ⟨σ, .known hget, rfl⟩
  | none =>
    rw [hget] at h
    dsimp only at h
    rw [apply_state_bind, apply_bind, apply_record] at h
    dsimp only at h
    rw [apply_liftM] at h
    cases h
    exact ⟨_, makeString_interns hget rfl, rfl⟩

theorem internString_of_negative (hnew : σ.state.strings.get? text = none)
    (hnegative : unitCount text < 0) :
    ((internString text).apply σ).1 = .error (.negativeArraySize (unitCount text)) := by
  have hrefused : ¬σ.state.host.Grants (unitCount text) :=
    fun hgrants => Int32.not_lt.2 hgrants.1 hnegative
  have hmake : ((makeString text).apply σ).1 = .error (.negativeArraySize (unitCount text)) := by
    rw [makeString, apply_bind, apply_createArray, ← unitCount,
      HeapObject.newArray_of_not_grants hrefused, if_pos hnegative]
  rw [internString, apply_state_bind, apply_bind, apply_attempt, hnew]
  dsimp only
  rw [hmake]
  rfl

end Literals

end Exec

end SymbolicBytecode

import Mathlib
import SymbolicBytecode.ClassFile.Outline
import SymbolicBytecode.Proofs.PoolSlots
import SymbolicBytecode.Proofs.Sequencing

/-!
# Building a constant pool

Constants are only ever added to a pool under construction, so an index that was given out keeps
its meaning. Texts and class names are looked up in two tables first. The invariant is that the
tables point to what they are asked for (`PoolBuilder.Sound`). It depends on there being room, since
an index that wraps around points elsewhere. `PoolBuilder.Enters` says this of one operation and is
carried over to operations one after the other.
-/
namespace SymbolicBytecode

namespace Table

variable {α : Type} {t : Table α} {name other : String} {v w : α}

/-- A new name takes nothing from the others. -/
theorem get?_insert_of_new (hnew : t.get? name = none) (h : t.get? other = some w) :
    (t.insert name v).get? other = some w := by
  rw [get?_insert, if_neg, h]
  rintro rfl
  simp [h] at hnew

theorem forall_insert {P : String → α → Prop} (h : ∀ other w, t.get? other = some w → P other w)
    (hnew : P name v) : ∀ other w, (t.insert name v).get? other = some w → P other w := by
  intro other w hget
  rw [get?_insert] at hget
  split at hget
  · next heq =>
    cases hget
    exact heq ▸ hnew
  · exact h other w hget

end Table

namespace ConstantPool

variable {pool middle later : ConstantPool} {index : PoolIndex} {c : Constant}

/-- The later pool has the same constants at the same indices, and perhaps more. -/
structure KeptIn (pool later : ConstantPool) : Prop where
  size_le : pool.size ≤ later.size
  get?_eq : ∀ index c, pool.get? index = some c → later.get? index = some c

theorem KeptIn.refl (pool : ConstantPool) : pool.KeptIn pool := ⟨le_rfl, fun _ _ h => h⟩

theorem KeptIn.trans (h : pool.KeptIn middle) (h' : middle.KeptIn later) : pool.KeptIn later where
  size_le := h.size_le.trans h'.size_le
  get?_eq index c hget := h'.get?_eq index c (h.get?_eq index c hget)

theorem lt_size_of_get? (h : pool.get? index = some c) :
    index ≠ 0 ∧ index.toNat - 1 < pool.size := by
  unfold get? at h
  split at h
  · cases h
  · next hne => exact ⟨hne, (Array.getElem?_eq_some_iff.1 h).1⟩

theorem keptIn_push (pool : ConstantPool) (c : Constant) : pool.KeptIn (pool.push c) where
  size_le := by
    rw [size_push]
    omega
  get?_eq index d h := by
    obtain ⟨hne, hlt⟩ := lt_size_of_get? h
    rw [get?, if_neg hne] at h ⊢
    rw [getElem?_push, if_pos hlt, h]

/-- As long as indices do not wrap around, a new constant is at the index that was announced. -/
theorem get?_nextIndex_push (h : pool.size < 65535) (c : Constant) :
    (pool.push c).get? pool.nextIndex = some c := by
  have hindex : pool.nextIndex.toNat = pool.size + 1 := by
    rw [nextIndex, Nat.toUInt16_eq, UInt16.toNat_ofNat']
    exact Nat.mod_eq_of_lt (by omega)
  have hne : pool.nextIndex ≠ 0 := by
    intro hzero
    rw [hzero] at hindex
    simp at hindex
  rw [get?, if_neg hne, hindex, Nat.add_sub_cancel, getElem?_push, if_neg (lt_irrefl _), if_pos rfl]

theorem utf8_ok_iff {value : String} :
    pool.utf8 index = .ok value ↔ pool.get? index = some (.utf8 value) := by
  unfold utf8
  split <;> simp_all

theorem className_ok_iff {name : String} :
    pool.className index = .ok name ↔
      ∃ text, pool.get? index = some (.classRef text) ∧ pool.utf8 text = .ok name := by
  unfold className
  split
  · next text hget => simp [hget, except_mapError_ok_iff]
  · next hnone => simpa using fun text hget => absurd hget (hnone text)

theorem nameAndType_ok_iff {name descriptor : String} :
    pool.nameAndType index = .ok (name, descriptor) ↔
      ∃ first second, pool.get? index = some (.nameAndType first second) ∧
        pool.utf8 first = .ok name ∧ pool.utf8 second = .ok descriptor := by
  unfold nameAndType
  split
  · next first second hget =>
    cases hname : pool.utf8 first with
    | error e => simp [hget, hname]
    | ok name =>
      cases hdescriptor : pool.utf8 second with
      | error e => simp [hget, hdescriptor]
      | ok descriptor => simp [hget, hname, hdescriptor]
  · next hnone => simpa using fun first second hget => absurd hget (hnone first second)

theorem memberRef_ok_iff {m : MemberRef} :
    pool.memberRef index = .ok m ↔
      ∃ owner nameAndType, pool.member? index = some (m.kind, owner, nameAndType) ∧
        pool.className owner = .ok m.className ∧
        pool.nameAndType nameAndType = .ok (m.name, m.descriptor) := by
  unfold memberRef
  split
  · next hnone => simp [hnone]
  · next kind owner nameAndType hmember =>
    cases howner : pool.className owner with
    | error e => simp [hmember, howner]
    | ok className =>
      cases hrest : pool.nameAndType nameAndType with
      | error e => simp [hmember, hrest]
      | ok found =>
        obtain ⟨name, descriptor⟩ := found
        obtain ⟨kind', className', name', descriptor'⟩ := m
        simp [hmember, howner, hrest]

theorem usable_of_memberRef {m : MemberRef} (h : pool.memberRef index = .ok m) :
    ∃ c, pool.get? index = some c ∧ c ≠ .unusable := by
  obtain ⟨owner, nameAndType, hmember, -⟩ := memberRef_ok_iff.1 h
  unfold member? at hmember
  cases hget : pool.get? index with
  | none => simp [hget] at hmember
  | some c =>
    refine ⟨c, rfl, ?_⟩
    rintro rfl
    simp [hget] at hmember

theorem usable_of_literal {v : Literal} (h : pool.literal index = .ok v) :
    ∃ c, pool.get? index = some c ∧ c ≠ .unusable := by
  unfold literal at h
  cases hget : pool.get? index with
  | none => simp [hget] at h
  | some c =>
    refine ⟨c, rfl, ?_⟩
    rintro rfl
    simp [hget] at h

namespace KeptIn

theorem utf8_eq {value : String} (h : pool.KeptIn later) (hok : pool.utf8 index = .ok value) :
    later.utf8 index = .ok value :=
  utf8_ok_iff.2 (h.get?_eq _ _ (utf8_ok_iff.1 hok))

theorem className_eq {name : String} (h : pool.KeptIn later)
    (hok : pool.className index = .ok name) : later.className index = .ok name := by
  obtain ⟨text, hget, htext⟩ := className_ok_iff.1 hok
  exact className_ok_iff.2 ⟨text, h.get?_eq _ _ hget, h.utf8_eq htext⟩

theorem nameAndType_eq {name descriptor : String} (h : pool.KeptIn later)
    (hok : pool.nameAndType index = .ok (name, descriptor)) :
    later.nameAndType index = .ok (name, descriptor) := by
  obtain ⟨first, second, hget, hname, hdescriptor⟩ := nameAndType_ok_iff.1 hok
  exact nameAndType_ok_iff.2
    ⟨first, second, h.get?_eq _ _ hget, h.utf8_eq hname, h.utf8_eq hdescriptor⟩

theorem member?_eq {m : MemberKind × PoolIndex × PoolIndex} (h : pool.KeptIn later)
    (hok : pool.member? index = some m) : later.member? index = some m := by
  unfold member? at hok ⊢
  cases hget : pool.get? index with
  | none => simp [hget] at hok
  | some c => rwa [h.get?_eq _ _ hget, ← hget]

theorem memberRef_eq {m : MemberRef} (h : pool.KeptIn later)
    (hok : pool.memberRef index = .ok m) : later.memberRef index = .ok m := by
  obtain ⟨owner, nameAndType, hmember, howner, hrest⟩ := memberRef_ok_iff.1 hok
  exact memberRef_ok_iff.2
    ⟨owner, nameAndType, h.member?_eq hmember, h.className_eq howner, h.nameAndType_eq hrest⟩

theorem literal_eq {v : Literal} (h : pool.KeptIn later) (hok : pool.literal index = .ok v) :
    later.literal index = .ok v := by
  unfold literal at hok ⊢
  cases hget : pool.get? index with
  | none => simp [hget] at hok
  | some c =>
    rw [hget] at hok
    rw [h.get?_eq _ _ hget]
    cases c with
    | string text =>
      cases htext : pool.utf8 text with
      | ok value => simpa [htext, h.utf8_eq htext] using hok
      | error e => simp [htext] at hok
    | _ => exact hok

end KeptIn

end ConstantPool

namespace PoolRequest

/-- What was asked for is found at the index, by following the references from there. -/
def FoundAt (pool : ConstantPool) (index : PoolIndex) : PoolRequest → Prop
  | utf8 value => pool.utf8 index = .ok value
  | classRef name => pool.className index = .ok name
  | methodRef s => pool.memberRef index = .ok ⟨.method, s.className, s.name, s.descriptor⟩
  | interfaceMethodRef s =>
    pool.memberRef index = .ok ⟨.interfaceMethod, s.className, s.name, s.descriptor⟩
  | integer value => pool.literal index = .ok (.int value)
  | long value => pool.literal index = .ok (.long value)
  | string value => pool.literal index = .ok (.string value)

/-- Texts and class names are entered once. -/
def isShared : PoolRequest → Bool
  | utf8 _ | classRef _ => true
  | _ => false

variable {r : PoolRequest} {pool later : ConstantPool} {index : PoolIndex}

theorem FoundAt.kept (h : r.FoundAt pool index) (hkept : pool.KeptIn later) :
    r.FoundAt later index := by
  cases r with
  | utf8 value => exact hkept.utf8_eq h
  | classRef name => exact hkept.className_eq h
  | methodRef s => exact hkept.memberRef_eq h
  | interfaceMethodRef s => exact hkept.memberRef_eq h
  | integer value => exact hkept.literal_eq h
  | long value => exact hkept.literal_eq h
  | string value => exact hkept.literal_eq h

/-- Nothing is found at the index zero, beyond the last slot or in an unusable one. -/
theorem FoundAt.usable (h : r.FoundAt pool index) :
    index ≠ 0 ∧ ∃ c, pool.get? index = some c ∧ c ≠ .unusable := by
  have hget : ∃ c, pool.get? index = some c ∧ c ≠ .unusable := by
    cases r with
    | utf8 value => exact ⟨_, ConstantPool.utf8_ok_iff.1 h, by simp⟩
    | classRef name =>
      obtain ⟨text, hget, -⟩ := ConstantPool.className_ok_iff.1 h
      exact ⟨_, hget, by simp⟩
    | methodRef s => exact ConstantPool.usable_of_memberRef h
    | interfaceMethodRef s => exact ConstantPool.usable_of_memberRef h
    | integer value => exact ConstantPool.usable_of_literal h
    | long value => exact ConstantPool.usable_of_literal h
    | string value => exact ConstantPool.usable_of_literal h
  obtain ⟨c, hc, hplain⟩ := hget
  exact ⟨(ConstantPool.lt_size_of_get? hc).1, c, hc, hplain⟩

/-- A constant is the answer to at most one request for a text or a class name. -/
theorem FoundAt.unique {r' : PoolRequest} (hr : r.isShared) (hr' : r'.isShared)
    (h : r.FoundAt pool index) (h' : r'.FoundAt pool index) : r = r' := by
  have hclash (value name : String) (htext : pool.utf8 index = .ok value)
      (hclass : pool.className index = .ok name) : False := by
    obtain ⟨text, hget, -⟩ := ConstantPool.className_ok_iff.1 hclass
    cases hget.symm.trans (ConstantPool.utf8_ok_iff.1 htext)
  cases r with
  | utf8 value =>
    cases r' with
    | utf8 value' => rw [Except.ok.inj (h.symm.trans h')]
    | classRef name' => exact (hclash value name' h h').elim
    | _ => cases hr'
  | classRef name =>
    cases r' with
    | utf8 value' => exact (hclash value' name h' h).elim
    | classRef name' => rw [Except.ok.inj (h.symm.trans h')]
    | _ => cases hr'
  | _ => cases hr

end PoolRequest

namespace PoolBuilder

open ConstantPool (KeptIn)

variable {b middle later : PoolBuilder} {P Q : ConstantPool → PoolIndex → Prop}
  {first second : PoolIndex × PoolBuilder}

/-- Indices have sixteen bits, and zero is none. -/
def Fits (b : PoolBuilder) : Prop := b.pool.size ≤ 65535

/-- The tables point to what they are asked for. -/
structure Sound (b : PoolBuilder) : Prop where
  texts : ∀ value index, b.texts.get? value = some index → b.pool.utf8 index = .ok value
  classes : ∀ name index, b.classes.get? name = some index → b.pool.className index = .ok name

/-- Nothing is taken out of the pool or the tables, and nothing in them changes. -/
structure Extends (b later : PoolBuilder) : Prop where
  pool : b.pool.KeptIn later.pool
  texts : ∀ value index, b.texts.get? value = some index → later.texts.get? value = some index
  classes : ∀ name index, b.classes.get? name = some index → later.classes.get? name = some index

theorem Extends.refl (b : PoolBuilder) : b.Extends b := ⟨.refl _, fun _ _ h => h, fun _ _ h => h⟩

theorem Extends.trans (h : b.Extends middle) (h' : middle.Extends later) : b.Extends later where
  pool := h.pool.trans h'.pool
  texts value index hget := h'.texts value index (h.texts value index hget)
  classes name index hget := h'.classes name index (h.classes name index hget)

theorem Extends.fits (h : b.Extends later) (hlater : later.Fits) : b.Fits :=
  h.pool.size_le.trans hlater

/-- An operation only adds. If there is room for what it adds, the tables stay right, and what it
returns is right. -/
structure Enters (b : PoolBuilder) (P : ConstantPool → PoolIndex → Prop)
    (result : PoolIndex × PoolBuilder) : Prop where
  grows : b.Extends result.2
  sound : b.Sound → result.2.Fits → result.2.Sound
  found : b.Sound → result.2.Fits → P result.2.pool result.1

/-- Two operations, one after the other: the second one leaves what the first one has found. -/
theorem Enters.andThen (hfirst : b.Enters P first) (hsecond : first.2.Enters Q second)
    (hkept : ∀ {pool later : ConstantPool}, pool.KeptIn later → P pool first.1 → P later first.1) :
    b.Enters (fun pool index => P pool first.1 ∧ Q pool index) second where
  grows := hfirst.grows.trans hsecond.grows
  sound hb hfits := hsecond.sound (hfirst.sound hb (hsecond.grows.fits hfits)) hfits
  found hb hfits := by
    have hroom := hsecond.grows.fits hfits
    exact ⟨hkept hsecond.grows.pool (hfirst.found hb hroom),
      hsecond.found (hfirst.sound hb hroom) hfits⟩

theorem enter_enters (b : PoolBuilder) (c : Constant) :
    b.Enters (fun pool index => pool.get? index = some c) (b.enter c) where
  grows := ⟨ConstantPool.keptIn_push _ _, fun _ _ h => h, fun _ _ h => h⟩
  sound hb _ := by
    have hkept := ConstantPool.keptIn_push b.pool c
    exact ⟨fun value index h => hkept.utf8_eq (hb.texts value index h),
      fun name index h => hkept.className_eq (hb.classes name index h)⟩
  found _ hfits := by
    have hroom : b.pool.size < 65535 := by
      have hsize : (b.pool.push c).size ≤ 65535 := hfits
      rw [ConstantPool.size_push] at hsize
      split at hsize <;> omega
    exact ConstantPool.get?_nextIndex_push hroom c

/-- A constant that refers to what was found before. -/
theorem Enters.thenEnter (hfirst : b.Enters P first) (make : PoolIndex → Constant)
    (hkept : ∀ {pool later : ConstantPool}, pool.KeptIn later → P pool first.1 → P later first.1) :
    b.Enters (fun pool index => P pool first.1 ∧ pool.get? index = some (make first.1))
      (first.2.enter (make first.1)) :=
  hfirst.andThen (enter_enters first.2 (make first.1)) hkept

theorem Enters.imp (h : b.Enters P first) (himp : ∀ pool, P pool first.1 → Q pool first.1) :
    b.Enters Q first :=
  ⟨h.grows, h.sound, fun hb hfits => himp _ (h.found hb hfits)⟩

/-- The table of texts may point to where a text was found. -/
theorem Enters.recordText {value : String}
    (h : b.Enters (fun pool index => pool.utf8 index = .ok value) first)
    (hnew : first.2.texts.get? value = none) :
    b.Enters (fun pool index => pool.utf8 index = .ok value)
      (first.1, { first.2 with texts := first.2.texts.insert value first.1 }) where
  grows := ⟨h.grows.pool, fun _ _ hget => Table.get?_insert_of_new hnew (h.grows.texts _ _ hget),
    h.grows.classes⟩
  sound hb hfits := ⟨Table.forall_insert (h.sound hb hfits).texts (h.found hb hfits),
    (h.sound hb hfits).classes⟩
  found := h.found

/-- The table of class names may point to where a class constant was found. -/
theorem Enters.recordClass {name : String}
    (h : b.Enters (fun pool index => pool.className index = .ok name) first)
    (hnew : first.2.classes.get? name = none) :
    b.Enters (fun pool index => pool.className index = .ok name)
      (first.1, { first.2 with classes := first.2.classes.insert name first.1 }) where
  grows := ⟨h.grows.pool, h.grows.texts,
    fun _ _ hget => Table.get?_insert_of_new hnew (h.grows.classes _ _ hget)⟩
  sound hb hfits := ⟨(h.sound hb hfits).texts,
    Table.forall_insert (h.sound hb hfits).classes (h.found hb hfits)⟩
  found := h.found

theorem utf8_enters (b : PoolBuilder) (value : String) :
    b.Enters (fun pool index => pool.utf8 index = .ok value) (b.utf8 value) := by
  unfold utf8
  split
  · next index hget => exact ⟨.refl b, fun hb _ => hb, fun hb _ => hb.texts value index hget⟩
  · next hnone =>
    exact Enters.recordText ((b.enter_enters (.utf8 value)).imp fun _ => ConstantPool.utf8_ok_iff.2)
      hnone

theorem utf8_classes (b : PoolBuilder) (value : String) :
    (b.utf8 value).2.classes = b.classes := by
  unfold utf8
  split <;> rfl

theorem classRef_enters (b : PoolBuilder) (name : String) :
    b.Enters (fun pool index => pool.className index = .ok name) (b.classRef name) := by
  unfold classRef
  split
  · next index hget => exact ⟨.refl b, fun hb _ => hb, fun hb _ => hb.classes name index hget⟩
  · next hnone =>
    have hclass := (b.utf8_enters name).thenEnter .classRef KeptIn.utf8_eq
    refine Enters.recordClass (hclass.imp fun pool h => ?_) ?_
    · exact ConstantPool.className_ok_iff.2 ⟨_, h.2, h.1⟩
    · exact (congrArg (·.get? name) (b.utf8_classes name)).trans hnone

theorem nameAndType_enters (b : PoolBuilder) (name descriptor : String) :
    b.Enters (fun pool index => pool.nameAndType index = .ok (name, descriptor))
      (b.nameAndType name descriptor) := by
  have hlast := (utf8_enters (b.utf8 name).2 descriptor).thenEnter (.nameAndType (b.utf8 name).1)
    KeptIn.utf8_eq
  refine ((b.utf8_enters name).andThen hlast KeptIn.utf8_eq).imp fun pool h => ?_
  obtain ⟨hname, hdescriptor, hget⟩ := h
  exact ConstantPool.nameAndType_ok_iff.2 ⟨_, _, hget, hname, hdescriptor⟩

theorem member_enters (b : PoolBuilder) (signature : Signature) {kind : MemberKind}
    {make : PoolIndex → PoolIndex → Constant}
    (hmake : ∀ {pool : ConstantPool} {index owner nameAndType : PoolIndex},
      pool.get? index = some (make owner nameAndType) →
      pool.member? index = some (kind, owner, nameAndType)) :
    b.Enters (fun pool index => pool.memberRef index =
      .ok ⟨kind, signature.className, signature.name, signature.descriptor⟩)
      (b.member signature make) := by
  have hlast := (nameAndType_enters (b.classRef signature.className).2 signature.name
    signature.descriptor).thenEnter (make (b.classRef signature.className).1) KeptIn.nameAndType_eq
  refine ((b.classRef_enters signature.className).andThen hlast KeptIn.className_eq).imp
    fun pool h => ?_
  obtain ⟨howner, hrest, hget⟩ := h
  exact ConstantPool.memberRef_ok_iff.2 ⟨_, _, hmake hget, howner, hrest⟩

/-- Every request is answered with an index at which it is found. -/
theorem request_enters (b : PoolBuilder) (r : PoolRequest) :
    b.Enters (fun pool index => r.FoundAt pool index) (b.request r) := by
  cases r with
  | utf8 value => exact b.utf8_enters value
  | classRef name => exact b.classRef_enters name
  | methodRef signature =>
    exact b.member_enters signature fun h => by simp only [ConstantPool.member?, h]
  | interfaceMethodRef signature =>
    exact b.member_enters signature fun h => by simp only [ConstantPool.member?, h]
  | integer value =>
    exact (b.enter_enters _).imp fun pool h => by
      simp only [PoolRequest.FoundAt, ConstantPool.literal, h]
  | long value =>
    exact (b.enter_enters _).imp fun pool h => by
      simp only [PoolRequest.FoundAt, ConstantPool.literal, h]
  | string value =>
    exact ((b.utf8_enters value).thenEnter .string KeptIn.utf8_eq).imp fun pool h => by
      simp only [PoolRequest.FoundAt, ConstantPool.literal, h.2, h.1]

/-- Where the tables say that a request is. -/
def recorded? (b : PoolBuilder) : PoolRequest → Option PoolIndex
  | .utf8 value => b.texts.get? value
  | .classRef name => b.classes.get? name
  | _ => none

theorem Extends.recorded?_eq {r : PoolRequest} {index : PoolIndex} (h : b.Extends later)
    (hrecorded : b.recorded? r = some index) : later.recorded? r = some index := by
  cases r with
  | utf8 value => exact h.texts value index hrecorded
  | classRef name => exact h.classes name index hrecorded
  | _ => cases hrecorded

/-- The answer to a request for a text or a class name is written down. -/
theorem request_recorded (b : PoolBuilder) {r : PoolRequest} (hr : r.isShared) :
    (b.request r).2.recorded? r = some (b.request r).1 := by
  cases r with
  | utf8 value =>
    simp only [request, utf8, recorded?]
    split
    · next index hget => exact hget
    · simp
  | classRef name =>
    simp only [request, classRef, recorded?]
    split
    · next index hget => exact hget
    · simp
  | _ => cases hr

theorem requests_extends (b : PoolBuilder) (rs : List PoolRequest) :
    b.Extends (b.requests rs).2 := by
  induction rs generalizing b with
  | nil => exact .refl b
  | cons r rs ih => exact (b.request_enters r).grows.trans (ih (b.request r).2)

/-- Every answer of a sequence is right in the end, and the tables still have it. -/
theorem requests_found (hb : b.Sound) (rs : List PoolRequest) (hfits : (b.requests rs).2.Fits) :
    List.Forall₂ (fun r index => r.FoundAt (b.requests rs).2.pool index ∧
      (r.isShared → (b.requests rs).2.recorded? r = some index)) rs (b.requests rs).1 := by
  induction rs generalizing b with
  | nil => exact .nil
  | cons r rs ih =>
    have hlater := requests_extends (b.request r).2 rs
    have hstep := b.request_enters r
    -- pools only grow, so there was room all along
    have hroom := hlater.fits hfits
    refine .cons ⟨(hstep.found hb hroom).kept hlater.pool, fun hr => ?_⟩
      (ih (hstep.sound hb hroom) hfits)
    exact hlater.recorded?_eq (b.request_recorded hr)

theorem empty_sound : empty.Sound where
  texts value index h := by cases h
  classes name index h := by cases h

end PoolBuilder

namespace ClassOutline

open PoolBuilder

theorem enterConstants_extends (o : ClassOutline) : o.enterConstants.2.Extends o.finishPool := by
  have hname := (o.enterConstants.2.classRef_enters o.name).grows
  unfold finishPool
  split
  · exact hname
  · next superName _ => exact hname.trans (classRef_enters _ superName).grows

/-- **Indices stay right.** Suppose that the requested constants take at most as many slots as there
are indices, which holds in particular if the finished pool does. Then in the pool of the class file
every request is found at the index that it was given, and this is neither zero nor the index of an
unusable slot. Two requests for texts or class names have the same index if and only if they are the
same request. -/
theorem build_indices (o : ClassOutline) (hsize : o.enterConstants.2.pool.size ≤ 65535) :
    List.Forall₂ (fun r index => r.FoundAt o.build.pool index ∧ index ≠ 0 ∧
      ∃ c, o.build.pool.get? index = some c ∧ c ≠ .unusable) o.constants o.enterConstants.1 ∧
    ∀ p ∈ o.constants.zip o.enterConstants.1, ∀ q ∈ o.constants.zip o.enterConstants.1,
      p.1.isShared → q.1.isShared → (p.2 = q.2 ↔ p.1 = q.1) := by
  have hanswers := requests_found empty_sound o.constants hsize
  refine ⟨hanswers.imp fun r index h => ?_, ?_⟩
  · have hfound : r.FoundAt o.build.pool index := h.1.kept o.enterConstants_extends.pool
    exact ⟨hfound, hfound.usable⟩
  · rintro ⟨r, index⟩ hp ⟨r', index'⟩ hq hr hr'
    obtain ⟨hfound, hrecorded⟩ := (List.forall₂_iff_zip.1 hanswers).2 hp
    obtain ⟨hfound', hrecorded'⟩ := (List.forall₂_iff_zip.1 hanswers).2 hq
    constructor
    · rintro rfl
      exact hfound.unique hr hr' hfound'
    · rintro rfl
      exact Option.some.inj ((hrecorded hr).symm.trans (hrecorded' hr))

/-- A class with a text, a class name and a wide constant in front of further requests. -/
def archive : ClassOutline :=
  { publicClass "Archive" with
    constants := [.utf8 "Archive", .long 7, .classRef "Archive",
      .methodRef ⟨"Archive", "add", "(J)V"⟩, .utf8 "Archive", .string "Archive"] }

theorem build_archive :
    archive.enterConstants.1 = [1, 2, 4, 8, 1, 9] ∧ archive.enterConstants.2.pool.size ≤ 65535 ∧
    archive.build.pool.memberRef 8 = .ok ⟨.method, "Archive", "add", "(J)V"⟩ ∧
    archive.build.pool.literal 9 = .ok (.string "Archive") := by
  have hindices : archive.enterConstants.1 = [1, 2, 4, 8, 1, 9] := by decide +kernel
  have hsize : archive.enterConstants.2.pool.size ≤ 65535 := by decide +kernel
  obtain ⟨hfound, -⟩ := build_indices archive hsize
  rw [hindices, List.forall₂_iff_zip] at hfound
  obtain ⟨-, hfound⟩ := hfound
  have hmember := (hfound (a := .methodRef ⟨"Archive", "add", "(J)V"⟩) (b := 8) (by decide)).1
  have hliteral := (hfound (a := .string "Archive") (b := 9) (by decide)).1
  exact ⟨hindices, hsize, hmember, hliteral⟩

end ClassOutline

end SymbolicBytecode

import Mathlib
import SymbolicBytecode.Proofs.Readers

/-!
# The slots of the constant pool

A class file declares one more than the number of slots of its constant pool, and a wide constant
takes two. The reader goes on as long as there are declared slots left, so a wide constant may start
in the last of them. Then the pool has one slot more than declared, and this is the only way in
which the two can differ.
-/
namespace SymbolicBytecode

/-- The count that stands in front of the constant pool, after the magic number and the versions. -/
def ClassFile.declaredCount : Bytes → UInt16
  | _ :: _ :: _ :: _ :: _ :: _ :: _ :: _ :: high :: low :: _ =>
    high.toUInt16 <<< 8 ||| low.toUInt16
  | _ => 0

namespace ConstantPool

variable {pool : ConstantPool} {c : Constant} {count : Nat}

/-- A slot is unusable just if the one before it holds a wide constant. -/
structure Aligned (pool : ConstantPool) : Prop where
  first : pool.slots[0]? ≠ some .unusable
  next : ∀ i, pool.slots[i + 1]? = some .unusable ↔ ∃ c, pool.slots[i]? = some c ∧ c.isWide

theorem Aligned.empty : ConstantPool.empty.Aligned := by
  constructor <;> simp [ConstantPool.empty]

theorem getElem?_push (pool : ConstantPool) (c : Constant) (i : Nat) :
    (pool.push c).slots[i]? =
      if i < pool.size then pool.slots[i]?
      else if i = pool.size then some c
      else if c.isWide ∧ i = pool.size + 1 then some .unusable
      else none := by
  unfold push size
  split
  · grind
  · grind

/-- There is no wide constant in the last slot. -/
theorem Aligned.lt_size (h : pool.Aligned) {i : Nat} (hget : pool.slots[i]? = some c)
    (hwide : c.isWide) : i + 1 < pool.size := by
  have hnext := (h.next i).2 ⟨c, hget, hwide⟩
  exact (Array.getElem?_eq_some_iff.1 hnext).1

theorem Aligned.push (h : pool.Aligned) (hc : c ≠ .unusable) : (pool.push c).Aligned where
  first := by
    have hfirst := h.first
    rw [getElem?_push]
    grind
  next i := by
    have hnext := h.next i
    have hlast (d : Constant) (hget : pool.slots[i]? = some d) (hwide : d.isWide) :
        i + 1 < pool.size := h.lt_size hget hwide
    have hplain : Constant.unusable.isWide = false := rfl
    simp only [getElem?_push]
    -- the new constant comes after, in or before the slot in question
    rcases lt_trichotomy (i + 1) pool.size with hlt | heq | hgt
    · rw [if_pos hlt, if_pos (by omega), hnext]
    · grind
    · grind

/-- The pool as the reader builds it up to a declared count: there may be one slot too many, which
is the second slot of a wide constant. -/
structure FilledUpTo (count : Nat) (pool : ConstantPool) : Prop where
  aligned : pool.Aligned
  within : pool.size < count ∨
    pool.size = count ∧ ∃ c, pool.slots[count - 2]? = some c ∧ c.isWide

theorem FilledUpTo.push (h : pool.FilledUpTo count) (hmore : pool.size + 1 < count)
    (hc : c ≠ .unusable) : (pool.push c).FilledUpTo count where
  aligned := h.aligned.push hc
  within := by
    rw [size_push]
    by_cases hwide : c.isWide
    · rw [if_pos hwide]
      by_cases hlast : pool.size + 2 = count
      · refine .inr ⟨hlast, c, ?_, hwide⟩
        rw [getElem?_push, ← hlast]
        simp
      · exact .inl (by omega)
    · rw [if_neg hwide]
      exact .inl hmore

end ConstantPool

open ConstantPool (FilledUpTo)

namespace Reader

variable {α β : Type}

/-- Whatever the reader makes of its input has the property. -/
def Yields (P : α → Prop) (r : Reader α) : Prop := ∀ input a rest, r input = .ok (a, rest) → P a

namespace Yields

variable {P : α → Prop}

theorem pure {a : α} (ha : P a) : Yields P (Pure.pure a : Reader α) := by
  intro input b rest h
  cases h
  exact ha

theorem throw (e : ReadError) : Yields P (MonadExcept.throw e : Reader α) := by
  intro input a rest h
  cases h

theorem bind_of {Q : β → Prop} {x : Reader β} {f : β → Reader α} (hx : Yields Q x)
    (hf : ∀ b, Q b → Yields P (f b)) : Yields P (x >>= f) := by
  intro input a rest h
  obtain ⟨b, middle, hfirst, hsecond⟩ := bind_ok_iff.1 h
  exact hf b (hx _ _ _ hfirst) _ _ _ hsecond

theorem bind {x : Reader β} {f : β → Reader α} (hf : ∀ b, Yields P (f b)) : Yields P (x >>= f) :=
  bind_of (Q := fun _ => True) (fun _ _ _ _ => trivial) fun b _ => hf b

end Yields

/-- The unusable slots are not in the bytes, and the only constants that hold bytes of any number
are the texts. -/
theorem constant_yields {P : Constant → Prop} (htext : Yields (fun t => P (.utf8 t)) text)
    (hother : ∀ c, c ≠ .unusable → (∀ t, c ≠ .utf8 t) → P c) : Yields P constant := by
  have hsingle {γ : Type} {x : Reader γ} {g : γ → Constant}
      (hg : ∀ a, g a ≠ .unusable ∧ ∀ t, g a ≠ .utf8 t) : Yields P (do return g (← x)) :=
    .bind fun a => .pure (hother _ (hg a).1 (hg a).2)
  have hpair {γ : Type} {x : Reader γ} {g : γ → UInt16 → Constant}
      (hg : ∀ a b, g a b ≠ .unusable ∧ ∀ t, g a b ≠ .utf8 t) :
      Yields P (do return g (← x) (← u2)) :=
    .bind fun a => .bind fun b => .pure (hother _ (hg a b).1 (hg a b).2)
  refine .bind fun tag => ?_
  unfold constantOf
  split
  · exact htext.bind_of fun t ht => .pure ht
  · exact hsingle (by simp)
  · exact hsingle (by simp)
  · exact hsingle (by simp)
  · exact hsingle (by simp)
  · exact hsingle (by simp)
  · exact hsingle (by simp)
  · exact hpair (by simp)
  · exact hpair (by simp)
  · exact hpair (by simp)
  · exact hpair (by simp)
  · exact hpair (by simp)
  · exact hsingle (by simp)
  · exact hpair (by simp)
  · exact hpair (by simp)
  · exact .throw _

/-- What the loop has read when it ends: all declared slots, and at most one more. -/
theorem constants_yields {count : Nat} {pool : ConstantPool} (hpool : pool.FilledUpTo count) :
    Yields (fun result => result.FilledUpTo count ∧ count ≤ result.size + 1)
      (constants count pool) := by
  induction pool using constants.induct count with
  | case1 pool hmore ih =>
    rw [constants, if_pos hmore]
    have hconstant : Yields (· ≠ .unusable) constant :=
      constant_yields (fun _ _ _ _ => by simp) fun c hc _ => hc
    exact hconstant.bind_of fun c hc => ih c (hpool.push hmore hc)
  | case2 pool hfull =>
    rw [constants, if_neg hfull]
    exact .pure ⟨hpool, by omega⟩

theorem u2_ok {input rest : Bytes} {n : UInt16} (h : u2 input = .ok (n, rest)) :
    ∃ high low : UInt8, input = high :: low :: rest ∧ n = high.toUInt16 <<< 8 ||| low.toUInt16 := by
  unfold u2 at h
  split at h
  · cases h
    exact ⟨_, _, rfl, rfl⟩
  · cases h

/-- The pool of a class is the one that is read after the versions, up to the count in front. -/
theorem contents_pool {input rest : Bytes} {c : ClassFile} (h : contents input = .ok (c, rest)) :
    ∃ (a b c' d high low : UInt8) (before after : Bytes),
      input = a :: b :: c' :: d :: high :: low :: before ∧
      constants (high.toUInt16 <<< 8 ||| low.toUInt16).toNat .empty before =
        .ok (c.pool, after) := by
  obtain ⟨_, input₁, hminor, hversion⟩ := bind_ok_iff.1 h
  obtain ⟨_, input₂, hmajor, hbody⟩ := bind_ok_iff.1 hversion
  obtain ⟨pool, input₃, hpool, hafter⟩ := bind_ok_iff.1 hbody
  obtain ⟨count, input₄, hcount, hconstants⟩ := bind_ok_iff.1 hpool
  obtain ⟨a, b, rfl, -⟩ := u2_ok hminor
  obtain ⟨c', d, rfl, -⟩ := u2_ok hmajor
  obtain ⟨high, low, rfl, rfl⟩ := u2_ok hcount
  -- what is read later does not change the pool
  have hsame : c.pool = pool := by
    refine (?_ : Yields (fun c : ClassFile => c.pool = pool) _) _ _ _ hafter
    refine .bind fun _ => .bind fun _ => .bind fun superIndex => .bind fun _ => .bind fun _ => ?_
    refine .bind fun _ => .bind fun _ => .bind fun _ => ?_
    dsimp only
    split
    · exact .bind fun _ => .bind fun _ => .pure rfl
    · exact .bind fun _ => .bind fun _ => .pure rfl
  exact ⟨a, b, c', d, high, low, input₄, input₃, rfl, hsame ▸ hconstants⟩

end Reader

namespace ClassFile

open Reader (contents)

variable {input : Bytes} {c : ClassFile}

/-- The pool of a class file, read up to the declared count. -/
theorem parse_pool (h : parse input = .ok c) (hcount : 1 ≤ declaredCount input) :
    c.pool.FilledUpTo (declaredCount input).toNat ∧
      (declaredCount input).toNat ≤ c.pool.size + 1 := by
  obtain ⟨taken, rfl, hreads⟩ := parse_ok h
  have hcontents := hreads.followed []
  rw [List.append_nil] at hcontents
  obtain ⟨_, _, _, _, high, low, before, after, rfl, hpool⟩ := Reader.contents_pool hcontents
  have hempty : ConstantPool.empty.FilledUpTo (high.toUInt16 <<< 8 ||| low.toUInt16).toNat :=
    ⟨.empty, .inl hcount⟩
  exact Reader.constants_yields hempty _ _ _ hpool

/-- **The number of slots.** The constant pool of a class file has the slots that are declared, or
one more. It has exactly those that are declared if and only if the last of them does not hold a
wide constant. Each wide constant is followed by its unusable slot, and no other slot is
unusable. -/
theorem parse_slots (h : parse input = .ok c) (hcount : 1 ≤ declaredCount input) :
    c.pool.Aligned ∧
    (c.pool.size = (declaredCount input).toNat - 1 ∨
      c.pool.size = (declaredCount input).toNat) ∧
    (c.pool.size = (declaredCount input).toNat - 1 ↔
      ∀ k, c.pool.get? (declaredCount input - 1) = some k → ¬k.isWide) := by
  obtain ⟨⟨haligned, hwithin⟩, hfull⟩ := parse_pool h hcount
  generalize declaredCount input = count at hcount hwithin hfull ⊢
  have hpos : 1 ≤ count.toNat := hcount
  have hindex : (count - 1).toNat = count.toNat - 1 := UInt16.toNat_sub_of_le _ _ hcount
  refine ⟨haligned, by omega, ?_⟩
  constructor
  · intro hsize k hget hwide
    rw [ConstantPool.get?] at hget
    split at hget
    · cases hget
    · have hlt := haligned.lt_size hget hwide
      omega
  · intro hplain
    rcases hwithin with hlt | ⟨hsize, k, hget, hwide⟩
    · omega
    have hsecond := haligned.lt_size hget hwide
    have hzero : count - 1 ≠ 0 := by
      intro hzero
      rw [hzero] at hindex
      simp at hindex
      omega
    refine absurd hwide (hplain k ?_)
    rw [ConstantPool.get?, if_neg hzero, hindex]
    exact hget

/-- The class `A` with a constant pool that ends with a wide constant, and the given count. -/
def endingWide (count : UInt8) : Bytes :=
  [0xca, 0xfe, 0xba, 0xbe, 0, 0, 0, 52, 0, count, 7, 0, 2, 1, 0, 1, 65, 5, 0, 0, 0, 0, 0, 0, 0, 7,
    0, 33, 0, 1, 0, 0, 0, 0, 0, 0, 0, 0, 0, 0]

/-- Of four declared slots the last is the second slot of the wide constant, so four there are. -/
theorem parse_endingWide :
    1 ≤ declaredCount (endingWide 5) ∧
    ∃ c, parse (endingWide 5) = .ok c ∧ c.pool.Aligned ∧ c.pool.size = 4 := by
  have hcount : 1 ≤ declaredCount (endingWide 5) := by decide
  have hparse : parse (endingWide 5) =
      .ok ⟨0, 52, ⟨#[.classRef 2, .utf8 "A", .long 7, .unusable]⟩, 33, "A", none, [], [], []⟩ := by
    decide +kernel
  obtain ⟨haligned, -, hexact⟩ := parse_slots hparse hcount
  exact ⟨hcount, _, hparse, haligned, hexact.2 (by decide +kernel)⟩

/-- Of three declared slots the last is the first slot of the wide constant. There are four. -/
theorem parse_endingWide_overfull :
    1 ≤ declaredCount (endingWide 4) ∧
    ∃ c, parse (endingWide 4) = .ok c ∧ c.pool.size ≠ (declaredCount (endingWide 4)).toNat - 1 := by
  refine ⟨by decide, ⟨0, 52, ⟨#[.classRef 2, .utf8 "A", .long 7, .unusable]⟩, 33, "A", none, [], [],
    []⟩, ?_, ?_⟩
  · decide +kernel
  · decide

end ClassFile

end SymbolicBytecode

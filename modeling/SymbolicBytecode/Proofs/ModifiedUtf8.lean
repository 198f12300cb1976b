import Mathlib
import SymbolicBytecode.Text.ModifiedUtf8

/-!
# Writing modified UTF-8

Each UTF-16 unit is written in as few bytes as possible, but the zero unit in two, so that no zero
byte occurs. Text that is written in this way is read back.
-/
namespace SymbolicBytecode.Text

/-- Two parts of a word that do not overlap are put together. -/
theorem shiftLeft_mod_or {a b k m : Nat} (hb : b < 2 ^ k) (ha : a * 2 ^ k < m) :
    a <<< k % m ||| b = a * 2 ^ k + b := by
  have hfits : a <<< k % m = a <<< k := Nat.mod_eq_of_lt (by rwa [Nat.shiftLeft_eq])
  rw [hfits, ← Nat.shiftLeft_add_eq_or_of_lt hb, Nat.shiftLeft_eq]

theorem toNat_toUInt16 {n : Nat} (h : n < 0x10000) : n.toUInt16.toNat = n := by
  rw [Nat.toUInt16_eq, UInt16.toNat_ofNat']
  exact Nat.mod_eq_of_lt h

namespace Utf16

theorem decode_cons_plain {u : UInt16} (hu : u.toNat < 0xd800 ∨ 0xdfff < u.toNat)
    (rest : List UInt16) :
    decode (u :: rest) = (decode rest).map (Char.ofNat u.toNat :: ·) := by
  have hhigh : isHighSurrogate u = false := by
    simp only [isHighSurrogate, UInt16.le_iff_toNat_le, UInt16.lt_iff_toNat_lt,
      UInt16.reduceToNat, Bool.and_eq_false_iff, decide_eq_false_iff_not]
    omega
  have hlow : isLowSurrogate u = false := by
    simp only [isLowSurrogate, UInt16.le_iff_toNat_le, UInt16.lt_iff_toNat_lt,
      UInt16.reduceToNat, Bool.and_eq_false_iff, decide_eq_false_iff_not]
    omega
  rw [decode.eq_def]
  simp only [hhigh, hlow, Bool.false_eq_true, if_false]

theorem decode_cons_pair {u v : UInt16} (hu : 0xd800 ≤ u.toNat ∧ u.toNat < 0xdc00)
    (hv : 0xdc00 ≤ v.toNat ∧ v.toNat < 0xe000) (rest : List UInt16) :
    decode (u :: v :: rest) = (decode rest).map (joinSurrogates u v :: ·) := by
  have hhigh : isHighSurrogate u = true := by
    simpa [isHighSurrogate, UInt16.le_iff_toNat_le, UInt16.lt_iff_toNat_lt] using hu
  have hlow : isLowSurrogate v = true := by
    simpa [isLowSurrogate, UInt16.le_iff_toNat_le, UInt16.lt_iff_toNat_lt] using hv
  simp only [decode, hhigh, hlow, if_true]

/-- The units of a character stand for it, whatever follows. -/
theorem decode_encodeChar_append (c : Char) (rest : List UInt16) :
    decode (encodeChar c ++ rest) = (decode rest).map (c :: ·) := by
  have hc : c.toNat < 0xd800 ∨ 0xdfff < c.toNat ∧ c.toNat < 0x110000 := c.valid
  have hofNat : Char.ofNat c.toNat = c := Char.ofNat_toNat c
  unfold encodeChar
  dsimp only
  split
  · next hsmall =>
    have hunit : c.toNat.toUInt16.toNat = c.toNat := toNat_toUInt16 hsmall
    rw [List.singleton_append, decode_cons_plain (by omega), hunit, hofNat]
  · next hlarge =>
    have hhigh : (0xd800 + (c.toNat - 0x10000) / 0x400).toUInt16.toNat =
        0xd800 + (c.toNat - 0x10000) / 0x400 := toNat_toUInt16 (by omega)
    have hlow : (0xdc00 + (c.toNat - 0x10000) % 0x400).toUInt16.toNat =
        0xdc00 + (c.toNat - 0x10000) % 0x400 := toNat_toUInt16 (by omega)
    have hsum : 0x10000 + (0xd800 + (c.toNat - 0x10000) / 0x400 - 0xd800) * 0x400 +
        (0xdc00 + (c.toNat - 0x10000) % 0x400 - 0xdc00) = c.toNat := by omega
    rw [List.cons_append, List.singleton_append,
      decode_cons_pair (by omega) (by omega), joinSurrogates, hhigh, hlow, hsum, hofNat]

theorem decode_encode (text : String) : decode (encode text) = some text.toList := by
  unfold encode
  induction text.toList with
  | nil => rfl
  | cons c rest ih => rw [List.flatMap_cons, decode_encodeChar_append, ih, Option.map_some]

end Utf16

namespace ModifiedUtf8

/-- The bytes of one unit. -/
def encodeUnit (u : UInt16) : List UInt8 :=
  let n := u.toNat
  if 0 < n ∧ n < 0x80 then [n.toUInt8]
  else if n < 0x800 then [(0xc0 + n / 0x40).toUInt8, (0x80 + n % 0x40).toUInt8]
  else [(0xe0 + n / 0x1000).toUInt8, (0x80 + n / 0x40 % 0x40).toUInt8, (0x80 + n % 0x40).toUInt8]

def encode (text : String) : List UInt8 := (Utf16.encode text).flatMap encodeUnit

theorem continuation?_of_lt {n : Nat} (h : n < 0x40) :
    continuation? (0x80 + n).toUInt8 = some n.toUInt16 := by
  revert n
  decide

/-- The bits of a unit that two bytes have, put together. -/
theorem join_two {n : Nat} (h : n < 0x10000) :
    (n / 0x40).toUInt16 <<< 6 ||| (n % 0x40).toUInt16 = n.toUInt16 := by
  have hword := shiftLeft_mod_or (a := n / 0x40) (b := n % 0x40) (k := 6) (m := 2 ^ 16)
    (by omega) (by omega)
  rw [← UInt16.toNat_inj, UInt16.toNat_or, UInt16.toNat_shiftLeft, toNat_toUInt16 (by omega),
    toNat_toUInt16 (by omega), toNat_toUInt16 (by omega)]
  exact hword.trans (by omega)

/-- The bits of a unit that three bytes have, put together. -/
theorem join_three {n : Nat} (h : n < 0x10000) :
    (n / 0x1000).toUInt16 <<< 12 ||| (n / 0x40 % 0x40).toUInt16 <<< 6 ||| (n % 0x40).toUInt16 =
      n.toUInt16 := by
  have hmiddle : (n / 0x40 % 0x40) <<< 6 % 2 ^ 16 = n / 0x40 % 0x40 * 2 ^ 6 := by
    rw [Nat.shiftLeft_eq]
    omega
  have hword := shiftLeft_mod_or (a := n / 0x1000) (b := n / 0x40 % 0x40 * 2 ^ 6) (k := 12)
    (m := 2 ^ 16) (by omega) (by omega)
  have hsum : n / 0x1000 * 2 ^ 12 + n / 0x40 % 0x40 * 2 ^ 6 = (n / 0x40) <<< 6 % 2 ^ 16 := by
    rw [Nat.shiftLeft_eq]
    omega
  have hhigh : (n / 0x1000).toUInt16 <<< 12 ||| (n / 0x40 % 0x40).toUInt16 <<< 6 =
      (n / 0x40).toUInt16 <<< 6 := by
    rw [← UInt16.toNat_inj, UInt16.toNat_or, UInt16.toNat_shiftLeft, UInt16.toNat_shiftLeft,
      UInt16.toNat_shiftLeft, toNat_toUInt16 (by omega), toNat_toUInt16 (by omega),
      toNat_toUInt16 (by omega)]
    change (n / 0x1000) <<< 12 % 2 ^ 16 ||| (n / 0x40 % 0x40) <<< 6 % 2 ^ 16 = _
    rw [hmiddle, hword, hsum]
    rfl
  rw [hhigh, join_two h]

theorem units_one {n : Nat} (hpos : 0 < n) (h : n < 0x80) (offset : Nat) (rest : List UInt8) :
    units offset (n.toUInt8 :: rest) = (units (offset + 1) rest).map (n.toUInt16 :: ·) := by
  have hbyte : ¬(n.toUInt8 = 0 ∨ 0xf0 ≤ n.toUInt8) ∧ n.toUInt8 &&& 0x80 = 0 ∧
      n.toUInt8.toUInt16 = n.toUInt16 := by
    revert hpos
    revert n
    decide
  obtain ⟨hlegal, hlead, hvalue⟩ := hbyte
  rw [units.eq_def]
  simp only [if_neg hlegal, if_pos hlead, hvalue]
  cases units (offset + 1) rest <;> rfl

theorem units_two {n : Nat} (h : n < 0x800) (offset : Nat) (rest : List UInt8) :
    units offset ((0xc0 + n / 0x40).toUInt8 :: (0x80 + n % 0x40).toUInt8 :: rest) =
      (units (offset + 2) rest).map (n.toUInt16 :: ·) := by
  have hbyte {k : Nat} (hk : k < 0x20) :
      ¬((0xc0 + k).toUInt8 = 0 ∨ 0xf0 ≤ (0xc0 + k).toUInt8) ∧
        ¬(0xc0 + k).toUInt8 &&& 0x80 = 0 ∧ (0xc0 + k).toUInt8 &&& 0xe0 = 0xc0 ∧
        ((0xc0 + k).toUInt8 &&& 0x1f).toUInt16 = k.toUInt16 := by
    revert k
    decide
  obtain ⟨hlegal, hmany, hlead, hvalue⟩ := hbyte (k := n / 0x40) (by omega)
  rw [units.eq_def]
  simp only [if_neg hlegal, if_neg hmany, if_pos hlead, hvalue,
    continuation?_of_lt (n := n % 0x40) (by omega), join_two (n := n) (by omega)]
  cases units (offset + 2) rest <;> rfl

theorem units_three {n : Nat} (h : n < 0x10000) (offset : Nat) (rest : List UInt8) :
    units offset ((0xe0 + n / 0x1000).toUInt8 :: (0x80 + n / 0x40 % 0x40).toUInt8 ::
        (0x80 + n % 0x40).toUInt8 :: rest) =
      (units (offset + 3) rest).map (n.toUInt16 :: ·) := by
  have hbyte {k : Nat} (hk : k < 0x10) :
      ¬((0xe0 + k).toUInt8 = 0 ∨ 0xf0 ≤ (0xe0 + k).toUInt8) ∧
        ¬(0xe0 + k).toUInt8 &&& 0x80 = 0 ∧ ¬(0xe0 + k).toUInt8 &&& 0xe0 = 0xc0 ∧
        (0xe0 + k).toUInt8 &&& 0xf0 = 0xe0 ∧
        ((0xe0 + k).toUInt8 &&& 0x0f).toUInt16 = k.toUInt16 := by
    revert k
    decide
  obtain ⟨hlegal, hmany, hmore, hlead, hvalue⟩ := hbyte (k := n / 0x1000) (by omega)
  rw [units.eq_def]
  simp only [if_neg hlegal, if_neg hmany, if_neg hmore, if_pos hlead, hvalue,
    continuation?_of_lt (n := n % 0x40) (by omega),
    continuation?_of_lt (n := n / 0x40 % 0x40) (by omega), join_three h]
  cases units (offset + 3) rest <;> rfl

/-- The bytes of a unit are read back, whatever follows. -/
theorem units_encodeUnit_append (u : UInt16) (offset : Nat) (rest : List UInt8) :
    units offset (encodeUnit u ++ rest) =
      (units (offset + (encodeUnit u).length) rest).map (u :: ·) := by
  have hu : u.toNat.toUInt16 = u := UInt16.ofNat_toNat
  have hlt : u.toNat < 0x10000 := u.toNat_lt
  unfold encodeUnit
  dsimp only
  split
  · next hone =>
    have hread := units_one hone.1 hone.2 offset rest
    rwa [hu] at hread
  · split
    · next htwo =>
      have hread := units_two htwo offset rest
      rwa [hu] at hread
    · have hread := units_three hlt offset rest
      rwa [hu] at hread

theorem units_flatMap_encodeUnit (us : List UInt16) (offset : Nat) :
    units offset (us.flatMap encodeUnit) = .ok us := by
  induction us generalizing offset with
  | nil => rw [List.flatMap_nil, units]
  | cons u rest ih => rw [List.flatMap_cons, units_encodeUnit_append, ih, Except.map]

theorem decode_encode (text : String) : decode (encode text) = .ok text := by
  rw [decode, encode, units_flatMap_encodeUnit]
  simp only [bind, Except.bind, Utf16.decode_encode, pure, Except.pure, String.ofList_toList]

end ModifiedUtf8

end SymbolicBytecode.Text

import Mathlib
import SymbolicBytecode.Proofs.ModifiedUtf8

/-!
# Groups of modified UTF-8

A byte string is readable if it falls into groups of one to three bytes, one for each UTF-16 unit,
and the surrogates among the units are paired. `IsGroup` lists the groups, whether or not a shorter
one stands for the same unit, and `Splits` puts them in a row. If a byte string does not fall into
groups, reading stops at the first byte that cannot go on with what is in front of it.
-/
namespace SymbolicBytecode.Text

theorem toUInt8_of_eq {n : Nat} {x : UInt8} (h : x.toNat = n) : n.toUInt8 = x := by
  rw [← h]
  exact UInt8.ofNat_toNat

theorem toUInt16_of_eq {n : Nat} {u : UInt16} (h : u.toNat = n) : n.toUInt16 = u := by
  rw [← h]
  exact UInt16.ofNat_toNat

namespace Utf16

/-- Every surrogate belongs to a pair of a high and a low one. -/
inductive WellFormed : List UInt16 → Prop where
  | nil : WellFormed []
  | plain {u : UInt16} {us : List UInt16} (hu : u.toNat < 0xd800 ∨ 0xdfff < u.toNat)
      (hus : WellFormed us) : WellFormed (u :: us)
  | pair {u v : UInt16} {us : List UInt16} (hu : 0xd800 ≤ u.toNat ∧ u.toNat < 0xdc00)
      (hv : 0xdc00 ≤ v.toNat ∧ v.toNat < 0xe000) (hus : WellFormed us) :
      WellFormed (u :: v :: us)

theorem isHighSurrogate_iff (u : UInt16) :
    isHighSurrogate u = true ↔ 0xd800 ≤ u.toNat ∧ u.toNat < 0xdc00 := by
  simp [isHighSurrogate, UInt16.le_iff_toNat_le, UInt16.lt_iff_toNat_lt]

theorem isLowSurrogate_iff (u : UInt16) :
    isLowSurrogate u = true ↔ 0xdc00 ≤ u.toNat ∧ u.toNat < 0xe000 := by
  simp [isLowSurrogate, UInt16.le_iff_toNat_le, UInt16.lt_iff_toNat_lt]

/-- Only paired surrogates can be read. -/
theorem wellFormed_of_decode {us : List UInt16} {cs : List Char} (h : decode us = some cs) :
    WellFormed us := by
  fun_induction decode us generalizing cs with
  | case1 => exact .nil
  | case2 u hu v rest hv ih =>
    obtain ⟨tail, htail, -⟩ := Option.map_eq_some_iff.1 h
    exact .pair ((isHighSurrogate_iff u).1 hu) ((isLowSurrogate_iff v).1 hv) (ih htail)
  | case3 => cases h
  | case4 => cases h
  | case5 => cases h
  | case6 u rest hu hv ih =>
    obtain ⟨tail, htail, -⟩ := Option.map_eq_some_iff.1 h
    rw [isHighSurrogate_iff] at hu
    rw [isLowSurrogate_iff] at hv
    exact .plain (by omega) (ih htail)

theorem toNat_ofNat_of_valid {n : Nat} (h : n < 0xd800 ∨ 0xdfff < n ∧ n < 0x110000) :
    (Char.ofNat n).toNat = n := by
  rw [Char.toNat_ofNat, if_pos h]

/-- What paired surrogates are read as is written as the same units. -/
theorem WellFormed.exists_encode {us : List UInt16} (h : WellFormed us) :
    ∃ text, encode text = us := by
  suffices hchars : ∃ cs : List Char, cs.flatMap encodeChar = us by
    obtain ⟨cs, hcs⟩ := hchars
    exact ⟨String.ofList cs, by rw [encode, String.toList_ofList, hcs]⟩
  induction h with
  | nil => exact ⟨[], rfl⟩
  | @plain u us hu hus ih =>
    obtain ⟨cs, rfl⟩ := ih
    have hlt : u.toNat < 0x10000 := u.toNat_lt
    have hchar : encodeChar (Char.ofNat u.toNat) = [u] := by
      rw [encodeChar, toNat_ofNat_of_valid (by omega), if_pos hlt, toUInt16_of_eq rfl]
    exact ⟨Char.ofNat u.toNat :: cs, by rw [List.flatMap_cons, hchar]; rfl⟩
  | @pair u v us hu hv hus ih =>
    obtain ⟨cs, rfl⟩ := ih
    have hchar : encodeChar (joinSurrogates u v) = [u, v] := by
      rw [encodeChar, joinSurrogates, toNat_ofNat_of_valid (by omega), if_neg (by omega),
        toUInt16_of_eq (u := u) (by omega), toUInt16_of_eq (u := v) (by omega)]
    exact ⟨joinSurrogates u v :: cs, by rw [List.flatMap_cons, hchar]; rfl⟩

theorem decode_eq_some_iff {us : List UInt16} {cs : List Char} :
    decode us = some cs ↔ us = encode (String.ofList cs) := by
  constructor
  · intro h
    obtain ⟨text, rfl⟩ := (wellFormed_of_decode h).exists_encode
    cases h.symm.trans (decode_encode text)
    rw [String.ofList_toList]
  · rintro rfl
    rw [decode_encode, String.toList_ofList]

/-- The units of a text are the sequences of units in which surrogates are paired. -/
theorem exists_encode_iff {us : List UInt16} : (∃ text, encode text = us) ↔ WellFormed us := by
  constructor
  · rintro ⟨text, rfl⟩
    exact wellFormed_of_decode (decode_encode text)
  · exact WellFormed.exists_encode

end Utf16

namespace ModifiedUtf8

/-- A byte that goes on with a group. -/
def IsTail (y : UInt8) : Prop := 0x80 ≤ y ∧ y ≤ 0xbf

instance : DecidablePred IsTail := fun _ => inferInstanceAs (Decidable (_ ∧ _))

/-- The groups, each with the unit that it stands for. -/
inductive IsGroup : List UInt8 → UInt16 → Prop where
  | one {x : UInt8} {u : UInt16} (hx : 0x01 ≤ x ∧ x ≤ 0x7f) (hu : u.toNat = x.toNat) :
      IsGroup [x] u
  | two {x y : UInt8} {u : UInt16} (hx : 0xc0 ≤ x ∧ x ≤ 0xdf) (hy : IsTail y)
      (hu : u.toNat = (x.toNat - 0xc0) * 0x40 + (y.toNat - 0x80)) : IsGroup [x, y] u
  | three {x y z : UInt8} {u : UInt16} (hx : 0xe0 ≤ x ∧ x ≤ 0xef) (hy : IsTail y) (hz : IsTail z)
      (hu : u.toNat = (x.toNat - 0xe0) * 0x1000 + (y.toNat - 0x80) * 0x40 + (z.toNat - 0x80)) :
      IsGroup [x, y, z] u

/-- A byte string as a row of groups, with their units. -/
inductive Splits : List UInt8 → List UInt16 → Prop where
  | nil : Splits [] []
  | cons {group rest : List UInt8} {u : UInt16} {us : List UInt16} (hgroup : IsGroup group u)
      (hrest : Splits rest us) : Splits (group ++ rest) (u :: us)

variable {b group stem rest : List UInt8} {u : UInt16} {us : List UInt16}

theorem isTail_least : IsTail 0x80 := by decide

theorem exists_group_two {x y : UInt8} (hx : 0xc0 ≤ x ∧ x ≤ 0xdf) (hy : IsTail y) :
    ∃ u, IsGroup [x, y] u := by
  have hlead : 0xc0 ≤ x.toNat ∧ x.toNat ≤ 0xdf := hx
  have htail : 0x80 ≤ y.toNat ∧ y.toNat ≤ 0xbf := hy
  exact ⟨_, .two hx hy (toNat_toUInt16 (by omega))⟩

theorem exists_group_three {x y z : UInt8} (hx : 0xe0 ≤ x ∧ x ≤ 0xef) (hy : IsTail y)
    (hz : IsTail z) : ∃ u, IsGroup [x, y, z] u := by
  have hlead : 0xe0 ≤ x.toNat ∧ x.toNat ≤ 0xef := hx
  have hmiddle : 0x80 ≤ y.toNat ∧ y.toNat ≤ 0xbf := hy
  have hlast : 0x80 ≤ z.toNat ∧ z.toNat ≤ 0xbf := hz
  exact ⟨_, .three hx hy hz (toNat_toUInt16 (by omega))⟩

/-- A group is read as its unit, whatever follows. -/
theorem IsGroup.units_append (h : IsGroup group u) (offset : Nat) (rest : List UInt8) :
    units offset (group ++ rest) = (units (offset + group.length) rest).map (u :: ·) := by
  cases h with
  | @one x u hx hu =>
    have hlow : 0x01 ≤ x.toNat := hx.1
    have hhigh : x.toNat ≤ 0x7f := hx.2
    have hread := units_one (n := x.toNat) (by omega) (by omega) offset rest
    rwa [toUInt8_of_eq rfl, toUInt16_of_eq hu] at hread
  | @two x y u hx hy hu =>
    have hlead : 0xc0 ≤ x.toNat ∧ x.toNat ≤ 0xdf := hx
    have htail : 0x80 ≤ y.toNat ∧ y.toNat ≤ 0xbf := hy
    have hread := units_two (n := u.toNat) (by omega) offset rest
    rwa [toUInt8_of_eq (x := x) (by omega), toUInt8_of_eq (x := y) (by omega),
      toUInt16_of_eq rfl] at hread
  | @three x y z u hx hy hz hu =>
    have hlead : 0xe0 ≤ x.toNat ∧ x.toNat ≤ 0xef := hx
    have hmiddle : 0x80 ≤ y.toNat ∧ y.toNat ≤ 0xbf := hy
    have hlast : 0x80 ≤ z.toNat ∧ z.toNat ≤ 0xbf := hz
    have hread := units_three (n := u.toNat) u.toNat_lt offset rest
    rwa [toUInt8_of_eq (x := x) (by omega), toUInt8_of_eq (x := y) (by omega),
      toUInt8_of_eq (x := z) (by omega), toUInt16_of_eq rfl] at hread

theorem Splits.units_append (h : Splits b us) (offset : Nat) (rest : List UInt8) :
    units offset (b ++ rest) = (units (offset + b.length) rest).map (us ++ ·) := by
  induction h generalizing offset with
  | nil =>
    rw [List.nil_append, List.length_nil, Nat.add_zero]
    cases units offset rest <;> rfl
  | @cons group tail u us hgroup _ ih =>
    rw [List.append_assoc, hgroup.units_append, ih, List.length_append, ← Nat.add_assoc]
    cases units (offset + group.length + tail.length) rest <;> rfl

theorem Splits.append {vs : List UInt16} (h : Splits b us) (hrest : Splits rest vs) :
    Splits (b ++ rest) (us ++ vs) := by
  induction h with
  | nil => exact hrest
  | cons hgroup _ ih =>
    rw [List.append_assoc]
    exact .cons hgroup ih

/-- The tests that tell the first bytes of groups apart, as ranges. -/
theorem lead_ranges (x : UInt8) :
    (x = 0 ∨ 0xf0 ≤ x ↔ x.toNat = 0 ∨ 0xf0 ≤ x.toNat) ∧ (x &&& 0x80 = 0 ↔ x.toNat ≤ 0x7f) ∧
      (x &&& 0xe0 = 0xc0 ↔ 0xc0 ≤ x.toNat ∧ x.toNat ≤ 0xdf) ∧
      (x &&& 0xf0 = 0xe0 ↔ 0xe0 ≤ x.toNat ∧ x.toNat ≤ 0xef) := by
  revert x
  decide +kernel

theorem continuation?_eq_none_iff (y : UInt8) : continuation? y = none ↔ ¬IsTail y := by
  unfold IsTail
  revert y
  decide +kernel

theorem continuation?_of_isTail {y : UInt8} (hy : IsTail y) : ∃ bits, continuation? y = some bits :=
  Option.ne_none_iff_exists'.1 fun hnone => (continuation?_eq_none_iff y).1 hnone hy

/-- No group starts with a zero byte, a byte that goes on with a group, or a byte from `f0` on. -/
theorem units_of_not_lead {x : UInt8} (hx : x = 0 ∨ 0xf0 ≤ x ∨ IsTail x) (offset : Nat)
    (rest : List UInt8) : units offset (x :: rest) = .error offset := by
  obtain ⟨hout, hone, htwo, hthree⟩ := lead_ranges x
  rw [units.eq_def]
  simp only [hout, hone, htwo, hthree]
  rcases or_assoc.2 hx with hx | htail
  · rw [if_pos (hout.1 hx)]
  · have htail : 0x80 ≤ x.toNat ∧ x.toNat ≤ 0xbf := htail
    rw [if_neg (by omega), if_neg (by omega), if_neg (by omega), if_neg (by omega)]

/-- After the first byte of a longer group comes one that goes on with it. -/
theorem units_of_broken_lead {x : UInt8} (hx : 0xc0 ≤ x ∧ x ≤ 0xdf ∨ 0xe0 ≤ x ∧ x ≤ 0xef)
    (hrest : ∀ y ∈ rest.head?, ¬IsTail y) (offset : Nat) :
    units offset (x :: rest) = .error (offset + 1) := by
  obtain ⟨hout, hone, htwo, hthree⟩ := lead_ranges x
  have hlead : 0xc0 ≤ x.toNat ∧ x.toNat ≤ 0xdf ∨ 0xe0 ≤ x.toNat ∧ x.toNat ≤ 0xef := hx
  have hbreak : ∀ y ∈ rest.head?, continuation? y = none := fun y hy =>
    (continuation?_eq_none_iff y).2 (hrest y hy)
  rw [units.eq_def]
  simp only [hout, hone, htwo, hthree]
  rw [if_neg (by omega), if_neg (by omega)]
  -- the second byte is looked at in the same way in both cases
  cases rest with
  | nil =>
    split
    · rfl
    · rw [if_pos (by omega)]
  | cons y rest =>
    simp only [hbreak y rfl]
    split
    · rfl
    · rw [if_pos (by omega)]

/-- A group that starts with `e0` to `ef` has three bytes. -/
theorem units_of_broken_tail {x y : UInt8} (hx : 0xe0 ≤ x ∧ x ≤ 0xef) (hy : IsTail y)
    (hrest : ∀ z ∈ rest.head?, ¬IsTail z) (offset : Nat) :
    units offset (x :: y :: rest) = .error (offset + 2) := by
  obtain ⟨hout, hone, htwo, hthree⟩ := lead_ranges x
  have hlead : 0xe0 ≤ x.toNat ∧ x.toNat ≤ 0xef := hx
  have hbreak : ∀ y ∈ rest.head?, continuation? y = none := fun y hy =>
    (continuation?_eq_none_iff y).2 (hrest y hy)
  obtain ⟨bits, hbits⟩ := continuation?_of_isTail hy
  rw [units.eq_def]
  simp only [hout, hone, htwo, hthree, hbits]
  rw [if_neg (by omega), if_neg (by omega), if_neg (by omega), if_pos hlead]
  cases rest with
  | nil => rfl
  | cons z rest => simp only [hbreak z rfl]

/-- The bytes read so far begin a group, and what follows cannot go on with it. -/
structure Stops (stem rest : List UInt8) : Prop where
  begins : ∃ more u, IsGroup (stem ++ more) u
  blocked : ∀ offset rest', rest'.head? = rest.head? →
    units offset (stem ++ rest') = .error (offset + stem.length)

theorem stops_at_lead {x : UInt8} (hx : x = 0 ∨ 0xf0 ≤ x ∨ IsTail x) (rest : List UInt8) :
    Stops [] (x :: rest) where
  begins := ⟨[0x01], 0x01, .one (by decide) rfl⟩
  blocked := by
    intro offset rest' hhead
    obtain ⟨tail, rfl⟩ := List.head?_eq_some_iff.1 hhead
    exact units_of_not_lead hx offset tail

theorem stops_after_lead {x : UInt8} (hx : 0xc0 ≤ x ∧ x ≤ 0xdf ∨ 0xe0 ≤ x ∧ x ≤ 0xef)
    (hrest : ∀ y ∈ rest.head?, ¬IsTail y) : Stops [x] rest where
  begins := by
    rcases hx with htwo | hthree
    · exact ⟨[0x80], exists_group_two htwo isTail_least⟩
    · exact ⟨[0x80, 0x80], exists_group_three hthree isTail_least isTail_least⟩
  blocked := by
    intro offset rest' hhead
    exact units_of_broken_lead hx (hhead ▸ hrest) offset

theorem stops_after_tail {x y : UInt8} (hx : 0xe0 ≤ x ∧ x ≤ 0xef) (hy : IsTail y)
    (hrest : ∀ z ∈ rest.head?, ¬IsTail z) : Stops [x, y] rest where
  begins := by
    exact ⟨[0x80], exists_group_three hx hy isTail_least⟩
  blocked := by
    intro offset rest' hhead
    exact units_of_broken_tail hx hy (hhead ▸ hrest) offset

theorem lead_cases (x : UInt8) :
    (x = 0 ∨ 0xf0 ≤ x ∨ IsTail x) ∨ (0x01 ≤ x ∧ x ≤ 0x7f) ∨ (0xc0 ≤ x ∧ x ≤ 0xdf) ∨
      (0xe0 ≤ x ∧ x ≤ 0xef) := by
  unfold IsTail
  revert x
  decide +kernel

theorem tail_or_not (rest : List UInt8) :
    (∃ y tail, rest = y :: tail ∧ IsTail y) ∨ ∀ y ∈ rest.head?, ¬IsTail y := by
  cases rest with
  | nil => exact .inr (by simp)
  | cons y tail =>
    by_cases hy : IsTail y
    · exact .inl ⟨y, tail, rfl, hy⟩
    · exact .inr (by simpa using hy)

/-- A byte string starts with a group, or reading stops before the first one ends. -/
theorem group_or_stops (hb : b ≠ []) :
    (∃ group rest u, b = group ++ rest ∧ IsGroup group u) ∨
      ∃ stem rest, b = stem ++ rest ∧ Stops stem rest := by
  obtain ⟨x, rest, rfl⟩ := List.exists_cons_of_ne_nil hb
  rcases lead_cases x with hnone | hone | htwo | hthree
  · exact .inr ⟨[], x :: rest, rfl, stops_at_lead hnone rest⟩
  · exact .inl ⟨[x], rest, x.toUInt16, rfl, .one hone (by simp)⟩
  · rcases tail_or_not rest with ⟨y, rest, rfl, hy⟩ | hbroken
    · obtain ⟨u, hgroup⟩ := exists_group_two htwo hy
      exact .inl ⟨[x, y], rest, u, rfl, hgroup⟩
    · exact .inr ⟨[x], rest, rfl, stops_after_lead (.inl htwo) hbroken⟩
  · rcases tail_or_not rest with ⟨y, rest, rfl, hy⟩ | hbroken
    · rcases tail_or_not rest with ⟨z, rest, rfl, hz⟩ | hbroken
      · obtain ⟨u, hgroup⟩ := exists_group_three hthree hy hz
        exact .inl ⟨[x, y, z], rest, u, rfl, hgroup⟩
      · exact .inr ⟨[x, y], rest, rfl, stops_after_tail hthree hy hbroken⟩
    · exact .inr ⟨[x], rest, rfl, stops_after_lead (.inr hthree) hbroken⟩

theorem IsGroup.length_pos (h : IsGroup group u) : 0 < group.length := by
  cases h <;> simp

/-- A byte string falls into groups, or there are groups up to where reading stops. -/
theorem splits_or_stops (b : List UInt8) :
    (∃ us, Splits b us) ∨
      ∃ whole us stem rest, b = whole ++ (stem ++ rest) ∧ Splits whole us ∧ Stops stem rest := by
  -- by strong induction on the length, since groups differ in theirs
  induction hlength : b.length using Nat.strong_induction_on generalizing b with
  | _ n ih =>
    by_cases hb : b = []
    · exact .inl ⟨[], hb ▸ .nil⟩
    rcases group_or_stops hb with ⟨group, tail, u, rfl, hgroup⟩ | ⟨stem, rest, rfl, hstops⟩
    · have hshorter : tail.length < n := by
        have := hgroup.length_pos
        rw [← hlength, List.length_append]
        omega
      rcases ih _ hshorter tail rfl with ⟨us, hus⟩ | ⟨whole, us, stem, rest, rfl, hwhole, hstops⟩
      · exact .inl ⟨u :: us, .cons hgroup hus⟩
      · refine .inr ⟨group ++ whole, u :: us, stem, rest, ?_, .cons hgroup hwhole, hstops⟩
        rw [List.append_assoc]
    · exact .inr ⟨[], [], stem, rest, rfl, .nil, hstops⟩

theorem Splits.units_eq (h : Splits b us) (offset : Nat) : units offset b = .ok us := by
  have hread := h.units_append offset []
  rwa [List.append_nil, units, Except.map, List.append_nil] at hread

/-- Reading stops after the groups and the begun one, whatever follows the byte in the way. -/
theorem Stops.units_eq {whole rest' : List UInt8} (h : Stops stem rest) (hwhole : Splits whole us)
    (hhead : rest'.head? = rest.head?) (offset : Nat) :
    units offset (whole ++ (stem ++ rest')) = .error (offset + whole.length + stem.length) := by
  rw [hwhole.units_append, h.blocked _ _ hhead, Except.map]

/-- Once the groups are read, only the surrogates can be at fault. -/
theorem Splits.decode_eq (h : Splits b us) :
    decode b = (Utf16.decode us).elim (.error b.length) fun cs => .ok (String.ofList cs) := by
  rw [decode, h.units_eq]
  cases hus : Utf16.decode us with
  | none => simp only [bind, Except.bind, hus]; rfl
  | some cs => simp only [bind, Except.bind, hus]; rfl

/-- Where reading stops, the text stops too. -/
theorem Stops.decode_eq {whole rest' : List UInt8} (h : Stops stem rest) (hwhole : Splits whole us)
    (hhead : rest'.head? = rest.head?) :
    decode (whole ++ (stem ++ rest')) = .error (whole.length + stem.length) := by
  rw [decode, h.units_eq hwhole hhead, Nat.zero_add]
  rfl

theorem decode_ok_iff {text : String} : decode b = .ok text ↔ Splits b (Utf16.encode text) := by
  constructor
  · intro h
    rcases splits_or_stops b with ⟨us, hus⟩ | ⟨whole, us, stem, rest, rfl, hwhole, hstops⟩
    · rw [hus.decode_eq] at h
      cases hcs : Utf16.decode us with
      | none => simp [hcs] at h
      | some cs =>
        rw [hcs] at h
        cases h
        exact Utf16.decode_eq_some_iff.1 hcs ▸ hus
    · cases h.symm.trans (hstops.decode_eq hwhole rfl)
  · intro h
    rw [h.decode_eq, Utf16.decode_encode, Option.elim_some, String.ofList_toList]

/-- A failure is due to the surrogates, or to the byte at which reading stops. -/
theorem decode_error_cases {k : Nat} (h : decode b = .error k) :
    (k = b.length ∧ ∃ us, Splits b us) ∨
      ∃ whole us stem rest, b = whole ++ (stem ++ rest) ∧ Splits whole us ∧ Stops stem rest ∧
        k = whole.length + stem.length := by
  rcases splits_or_stops b with ⟨us, hus⟩ | ⟨whole, us, stem, rest, rfl, hwhole, hstops⟩
  · refine .inl ⟨?_, us, hus⟩
    rw [hus.decode_eq] at h
    cases hcs : Utf16.decode us with
    | none =>
      rw [hcs] at h
      exact (Except.error.inj h).symm
    | some cs => simp [hcs] at h
  · have hk := h.symm.trans (hstops.decode_eq hwhole rfl)
    exact .inr ⟨whole, us, stem, rest, rfl, hwhole, hstops, Except.error.inj hk⟩

/-- What is read before the failure is the beginning of a row of groups. -/
theorem exists_splits_of_decode_error {k : Nat} (h : decode b = .error k) :
    ∃ more us, Splits (b.take k ++ more) us := by
  rcases decode_error_cases h with
    ⟨rfl, us, hus⟩ | ⟨whole, us, stem, rest, rfl, hwhole, hstops, rfl⟩
  · exact ⟨[], us, by rwa [List.take_length, List.append_nil]⟩
  · obtain ⟨more, u, hgroup⟩ := hstops.begins
    have hlast : Splits (stem ++ more) [u] := by
      have hsingle : Splits ((stem ++ more) ++ []) [u] := .cons hgroup .nil
      rwa [List.append_nil] at hsingle
    refine ⟨more, us ++ [u], ?_⟩
    rw [← List.append_assoc, ← List.length_append, List.take_left, List.append_assoc]
    exact hwhole.append hlast

/-- The byte at which reading stops is to blame, whatever follows it. -/
theorem decode_error_of_take_eq {b' : List UInt8} {k : Nat} (h : decode b = .error k)
    (hk : k < b.length) (htake : b'.take (k + 1) = b.take (k + 1)) : decode b' = .error k := by
  rcases decode_error_cases h with ⟨rfl, -⟩ | ⟨whole, us, stem, rest, rfl, hwhole, hstops, rfl⟩
  · exact absurd hk (lt_irrefl _)
  · obtain ⟨z, tail, rfl⟩ : ∃ z tail, rest = z :: tail := by
      cases rest with
      | nil => simp at hk
      | cons z tail => exact ⟨z, tail, rfl⟩
    -- the byte in the way is the last one that the two byte strings share
    have hfirst : (whole ++ (stem ++ z :: tail)).take (whole.length + stem.length + 1) =
        whole ++ (stem ++ [z]) := by
      rw [Nat.add_assoc, List.take_length_add_append, List.take_length_add_append]
      rfl
    have hb' : b' = whole ++ (stem ++ z :: b'.drop (whole.length + stem.length + 1)) := by
      nth_rewrite 1 [← List.take_append_drop (whole.length + stem.length + 1) b']
      rw [htake, hfirst]
      simp
    rw [hb']
    exact hstops.decode_eq hwhole rfl

/-- **Decoding is exact.** A text is read back from its encoding. A byte string is read as a text if
and only if it is a row of groups for the units of the text. So it is readable if and only if it is
a row of groups whose surrogates are paired. Otherwise the failure names an offset in it or its
length. Up to the offset it begins like a row of groups; and if there is a byte at the offset, every
byte string that agrees up to this byte fails in the same way. -/
theorem decode_exact :
    (∀ text, decode (encode text) = .ok text) ∧
    (∀ b text, decode b = .ok text ↔ Splits b (Utf16.encode text)) ∧
    (∀ b, (∃ text, decode b = .ok text) ↔ ∃ us, Splits b us ∧ Utf16.WellFormed us) ∧
    ∀ b k, decode b = .error k → k ≤ b.length ∧
      (k < b.length → ∀ b', b'.take (k + 1) = b.take (k + 1) → decode b' = .error k) ∧
      ∃ more us, Splits (b.take k ++ more) us := by
  refine ⟨decode_encode, fun b text => decode_ok_iff, fun b => ?_, fun b k h => ⟨?_, ?_, ?_⟩⟩
  · simp only [decode_ok_iff, ← Utf16.exists_encode_iff]
    constructor
    · rintro ⟨text, htext⟩
      exact ⟨_, htext, text, rfl⟩
    · rintro ⟨_, hus, text, rfl⟩
      exact ⟨text, hus⟩
  · rcases decode_error_cases h with ⟨rfl, -⟩ | ⟨whole, us, stem, rest, rfl, -, -, rfl⟩
    · exact le_rfl
    · simp
  · exact fun hk b' htake => decode_error_of_take_eq h hk htake
  · exact exists_splits_of_decode_error h

/-- The third byte does not go on with the group that the second one begins. -/
theorem decode_broken_group :
    decode [0x41, 0xc3, 0x28, 0x42] = .error 2 ∧
    (∀ b' : List UInt8, b'.take 3 = [0x41, 0xc3, 0x28] → decode b' = .error 2) ∧
    ∃ more us, Splits (0x41 :: 0xc3 :: more) us := by
  have hfails : decode [0x41, 0xc3, 0x28, 0x42] = .error 2 := by decide +kernel
  obtain ⟨-, hshared, hbegins⟩ := decode_exact.2.2.2 _ _ hfails
  exact ⟨hfails, hshared (by decide), hbegins⟩

end ModifiedUtf8

end SymbolicBytecode.Text

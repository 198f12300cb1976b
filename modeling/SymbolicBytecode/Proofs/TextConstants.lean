import Mathlib
import SymbolicBytecode.Proofs.Allocation
import SymbolicBytecode.Proofs.ByteGroups
import SymbolicBytecode.Proofs.PoolSlots

/-!
# The texts of a class file

In a class file two bytes in front of a text say how many bytes it has, and each of its units takes
at least one of them. So there is an array for the characters of every text of a class that was
read.
-/
namespace SymbolicBytecode

open Text (IsShort)

theorem Text.ModifiedUtf8.Splits.length_le {b : List UInt8} {us : List UInt16}
    (h : Splits b us) : us.length ≤ b.length := by
  induction h with
  | nil => exact le_rfl
  | cons hgroup _ ih =>
    have hpos := hgroup.length_pos
    simp only [List.length_cons, List.length_append]
    omega

instance : DecidablePred IsShort := fun _ => inferInstanceAs (Decidable (_ < _))

def Constant.text? : Constant → Option String
  | .utf8 t => some t
  | _ => none

namespace ConstantPool

/-- Every text is short, whether a constant refers to it or not. -/
def IsBrief (pool : ConstantPool) : Prop :=
  ∀ t ∈ pool.slots.toList.filterMap Constant.text?, IsShort t

instance : DecidablePred IsBrief := fun _ => inferInstanceAs (Decidable (∀ t ∈ _, IsShort t))

theorem IsBrief.append {slots : Array Constant} {c : Constant} (h : IsBrief ⟨slots⟩)
    (hc : ∀ t, c = .utf8 t → IsShort t) : IsBrief ⟨slots.push c⟩ := by
  intro t ht
  rw [Array.toList_push, List.filterMap_append, List.mem_append] at ht
  rcases ht with hold | hnew
  · exact h t hold
  obtain ⟨d, hd, htext⟩ := List.mem_filterMap.1 hnew
  rw [List.mem_singleton.1 hd] at htext
  cases c with
  | utf8 t' =>
    cases htext
    exact hc t rfl
  | _ => cases htext

theorem IsBrief.push {pool : ConstantPool} {c : Constant} (h : pool.IsBrief)
    (hc : ∀ t, c = .utf8 t → IsShort t) : (pool.push c).IsBrief := by
  unfold ConstantPool.push
  split
  · exact (h.append hc).append (by simp)
  · exact h.append hc

theorem IsBrief.hasShortTexts {pool : ConstantPool} (h : pool.IsBrief) : pool.HasShortTexts := by
  intro index text hliteral
  unfold literal at hliteral
  split at hliteral
  case h_5 reference _ =>
    unfold utf8 get? at hliteral
    split at hliteral
    · next hutf8 =>
      cases hliteral
      split at hutf8
      · next hget =>
        cases hutf8
        split at hget
        · cases hget
        · rw [← Array.getElem?_toList] at hget
          exact h _ (List.mem_filterMap.2 ⟨_, List.mem_of_getElem? hget, rfl⟩)
      · cases hutf8
    · cases hliteral
  all_goals cases hliteral

end ConstantPool

namespace Reader

theorem bytes_yields (count : Nat) : Yields (·.length = count) (bytes count) := by
  intro input taken rest h
  unfold bytes at h
  split at h
  · next hcount =>
    cases h
    exact List.length_take_of_le hcount
  · cases h

theorem text_yields : Yields IsShort text := by
  refine .bind fun count => (bytes_yields _).bind_of fun encoded hlength => ?_
  split
  · next value hdecode =>
    have hunits := (Text.ModifiedUtf8.decode_ok_iff.1 hdecode).length_le
    have hcount := count.toNat_lt
    refine .pure ?_
    unfold IsShort
    omega
  · exact .throw _

theorem constants_brief {count : Nat} {pool : ConstantPool} (hpool : pool.IsBrief) :
    Yields ConstantPool.IsBrief (constants count pool) := by
  induction pool using constants.induct count with
  | case1 pool hmore ih =>
    rw [constants, if_pos hmore]
    have hconstant : Yields (fun c => ∀ t, c = .utf8 t → IsShort t) constant := by
      refine constant_yields (fun _ t _ h t' heq => ?_) fun c _ hnot t ht => absurd ht (hnot t)
      cases heq
      exact text_yields _ _ _ h
    exact hconstant.bind_of fun c hc => ih c (hpool.push hc)
  | case2 pool hfull =>
    rw [constants, if_neg hfull]
    exact .pure hpool

end Reader

/-- There is an array for the characters of every text that was read. -/
theorem ClassFile.parse_hasShortTexts {input : Bytes} {c : ClassFile}
    (h : ClassFile.parse input = .ok c) : c.pool.HasShortTexts := by
  obtain ⟨taken, rfl, hreads⟩ := parse_ok h
  have hcontents := hreads.followed []
  rw [List.append_nil] at hcontents
  obtain ⟨_, _, _, _, _, _, before, after, rfl, hpool⟩ := Reader.contents_pool hcontents
  have hempty : ConstantPool.empty.IsBrief := by simp [ConstantPool.IsBrief, ConstantPool.empty]
  exact (Reader.constants_brief hempty _ _ _ hpool).hasShortTexts

/-- A class with a text constant that has too many units for an array. It is in no class file. -/
structure ClassFile.Overlong (c : ClassFile) : Prop where
  text : ∃ index text, c.pool.literal index = .ok (.string text) ∧
    2 ^ 31 ≤ (Text.Utf16.encode text).length
  unread : ∀ input, ClassFile.parse input ≠ .ok c

theorem Hierarchy.exists_overlong {h : Hierarchy} (hlong : ¬h.HasShortTexts) :
    ∃ name c, h.get? name = some c ∧ c.Overlong := by
  unfold HasShortTexts at hlong
  push Not at hlong
  obtain ⟨name, c, hget, hpool⟩ := hlong
  refine ⟨name, c, hget, ?_, fun input hparse => hpool (ClassFile.parse_hasShortTexts hparse)⟩
  unfold ConstantPool.HasShortTexts at hpool
  push Not at hpool
  obtain ⟨index, text, hliteral, htext⟩ := hpool
  exact ⟨index, text, hliteral, Nat.not_lt.1 htext⟩

end SymbolicBytecode

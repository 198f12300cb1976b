import Mathlib
import SymbolicBytecode.ClassFile.Reader

/-!
# What readers take

A reader that succeeds has taken a certain part off the front of its bytes. It takes the same part
whatever follows, and it runs out of bytes if the part is cut short. So a class file is not the
beginning of a longer one, and the errors tell which of two faults a byte string has: something is
missing at its end, or something follows.
-/
namespace SymbolicBytecode

namespace Reader

variable {α β : Type}

theorem bind_ok_iff {x : Reader α} {f : α → Reader β} {input rest : Bytes} {b : β} :
    (x >>= f) input = .ok (b, rest) ↔
      ∃ a middle, x input = .ok (a, middle) ∧ f a middle = .ok (b, rest) := by
  change (x input >>= fun p => f p.1 p.2) = _ ↔ _
  rcases hx : x input with e | ⟨a, middle⟩
  · simp [bind, Except.bind]
  · simp [bind, Except.bind]

theorem bind_of_ok {x : Reader α} {f : α → Reader β} {input rest : Bytes} {a : α}
    (hx : x input = .ok (a, rest)) : (x >>= f) input = f a rest := by
  change (x input >>= fun p => f p.1 p.2) = _
  rw [hx]
  rfl

theorem bind_of_error {x : Reader α} {f : α → Reader β} {input : Bytes} {e : ReadError}
    (hx : x input = .error e) : (x >>= f) input = .error e := by
  change (x input >>= fun p => f p.1 p.2) = _
  rw [hx]
  rfl

/-- The reader takes exactly these bytes and makes this value of them. It runs out of bytes if any
are missing. -/
structure Reads (r : Reader α) (taken : Bytes) (a : α) : Prop where
  followed : ∀ rest, r (taken ++ rest) = .ok (a, rest)
  cut : ∀ part missing, taken = part ++ missing → missing ≠ [] → r part = .error .truncated

namespace Reads

theorem pure (a : α) : Reads (Pure.pure a) [] a where
  followed _ := rfl
  cut := by simp

theorem bind {x : Reader α} {f : α → Reader β} {first second : Bytes} {a : α} {b : β}
    (hx : Reads x first a) (hf : Reads (f a) second b) : Reads (x >>= f) (first ++ second) b where
  followed rest := by
    rw [List.append_assoc, bind_of_ok (hx.followed _)]
    exact hf.followed rest
  cut part missing hparts hmissing := by
    -- the bytes are cut off in the second part, or before its beginning
    rcases List.append_eq_append_iff.1 hparts with ⟨more, rfl, hsecond⟩ | ⟨lost, rfl, rfl⟩
    · rw [bind_of_ok (hx.followed more)]
      exact hf.cut more missing hsecond hmissing
    · by_cases hlost : lost = []
      · subst hlost
        have hwhole := hx.followed []
        simp only [List.append_nil, List.nil_append] at hwhole hmissing
        rw [bind_of_ok hwhole]
        exact hf.cut [] second rfl hmissing
      · exact bind_of_error (hx.cut part lost rfl hlost)

theorem bind_nil {x : Reader α} {f : α → Reader β} {taken : Bytes} {a : α} {b : β}
    (hx : Reads x taken a) (hf : Reads (f a) [] b) : Reads (x >>= f) taken b := by
  simpa using hx.bind hf

theorem nil_bind {x : Reader α} {f : α → Reader β} {taken : Bytes} {a : α} {b : β}
    (hx : Reads x [] a) (hf : Reads (f a) taken b) : Reads (x >>= f) taken b :=
  hx.bind hf

theorem map {x : Reader α} {taken : Bytes} {a : α} (g : α → β) (hx : Reads x taken a) :
    Reads (g <$> x) taken (g a) :=
  hx.bind_nil (f := fun a => Pure.pure (g a)) (.pure (g a))

end Reads

/-- Whenever the reader succeeds, it has taken a part of its input and has not looked further. -/
def Local (r : Reader α) : Prop :=
  ∀ input a rest, r input = .ok (a, rest) → ∃ taken, input = taken ++ rest ∧ Reads r taken a

namespace Local

theorem pure (a : α) : Local (Pure.pure a : Reader α) := by
  intro input b rest h
  cases h
  exact ⟨[], rfl, .pure a⟩

theorem throw (e : ReadError) : Local (MonadExcept.throw e : Reader α) := by
  intro input a rest h
  cases h

theorem bind {x : Reader α} {f : α → Reader β} (hx : Local x) (hf : ∀ a, Local (f a)) :
    Local (x >>= f) := by
  intro input b rest h
  obtain ⟨a, middle, hfirst, hsecond⟩ := bind_ok_iff.1 h
  obtain ⟨first, rfl, hreadsFirst⟩ := hx _ _ _ hfirst
  obtain ⟨second, rfl, hreadsSecond⟩ := hf a _ _ _ hsecond
  exact ⟨first ++ second, by simp, hreadsFirst.bind hreadsSecond⟩

theorem map {x : Reader α} (g : α → β) (hx : Local x) : Local (g <$> x) :=
  hx.bind fun a => .pure (g a)

/-- A value that does not depend on the input. -/
theorem lift (x : Except ReadError α) : Local (liftM x : Reader α) := by
  cases x with
  | error e => exact .throw e
  | ok a => exact .pure a

end Local

theorem u1_reads (b : UInt8) : Reads u1 [b] b where
  followed _ := rfl
  cut part missing hparts hmissing := by
    cases part with
    | nil => rfl
    | cons c rest => simp_all

theorem u2_reads (a b : UInt8) : Reads u2 [a, b] (a.toUInt16 <<< 8 ||| b.toUInt16) where
  followed _ := rfl
  cut part missing hparts hmissing := by
    match part with
    | [] => rfl
    | [_] => rfl
    | _ :: _ :: _ => simp_all

theorem bytes_reads (taken : Bytes) : Reads (bytes taken.length) taken taken where
  followed rest := by simp [bytes]
  cut part missing hparts hmissing := by
    have hshort : ¬taken.length ≤ part.length := by
      have := List.length_pos_iff.2 hmissing
      rw [hparts, List.length_append]
      omega
    simp [bytes, hshort]

theorem u1_local : Local u1 := by
  intro input a rest h
  unfold u1 at h
  split at h
  · cases h
    exact ⟨[a], rfl, u1_reads a⟩
  · cases h

theorem u2_local : Local u2 := by
  intro input n rest h
  unfold u2 at h
  split at h
  · next a b _ =>
    cases h
    exact ⟨[a, b], rfl, u2_reads a b⟩
  · cases h

theorem bytes_local (count : Nat) : Local (bytes count) := by
  intro input taken rest h
  unfold bytes at h
  split at h
  · next hcount =>
    cases h
    have hlength : (input.take count).length = count := by simpa using hcount
    have hreads := bytes_reads (input.take count)
    rw [hlength] at hreads
    exact ⟨input.take count, by simp, hreads⟩
  · cases h

theorem u4_local : Local u4 := u2_local.bind fun _ => u2_local.bind fun _ => .pure _

theorem u8_local : Local u8 := u4_local.bind fun _ => u4_local.bind fun _ => .pure _

theorem repeated_local {item : Reader α} (hitem : Local item) (count : Nat) :
    Local (repeated item count) := by
  induction count with
  | zero => exact .pure []
  | succ count ih => exact hitem.bind fun _ => ih.bind fun _ => .pure _

theorem counted_local {item : Reader α} (hitem : Local item) : Local (counted item) :=
  u2_local.bind fun count => repeated_local hitem count.toNat

theorem text_local : Local text := by
  refine u2_local.bind fun length => (bytes_local _).bind fun encoded => ?_
  split
  · exact .pure _
  · exact .throw _

theorem constantOf_local (tag : UInt8) : Local (constantOf tag) := by
  have hpair {g : UInt16 → UInt16 → Constant} :
      Local (do return g (← u2) (← u2)) := u2_local.bind fun _ => u2_local.bind fun _ => .pure _
  unfold constantOf
  split
  · exact text_local.bind fun _ => .pure _
  · exact u4_local.bind fun _ => .pure _
  · exact u4_local.bind fun _ => .pure _
  · exact u8_local.bind fun _ => .pure _
  · exact u8_local.bind fun _ => .pure _
  · exact u2_local.bind fun _ => .pure _
  · exact u2_local.bind fun _ => .pure _
  · exact hpair
  · exact hpair
  · exact hpair
  · exact hpair
  · exact u1_local.bind fun _ => u2_local.bind fun _ => .pure _
  · exact u2_local.bind fun _ => .pure _
  · exact hpair
  · exact hpair
  · exact .throw _

theorem constant_local : Local constant := u1_local.bind constantOf_local

theorem constants_local (count : Nat) (pool : ConstantPool) : Local (constants count pool) := by
  induction pool using constants.induct count with
  | case1 pool hmore ih =>
    rw [constants, if_pos hmore]
    exact constant_local.bind ih
  | case2 pool hfull =>
    rw [constants, if_neg hfull]
    exact .pure pool

theorem constantPool_local : Local constantPool :=
  u2_local.bind fun count => constants_local count.toNat _

theorem follow_local (found : Except InvalidIndex α) : Local (follow found) := by
  cases found with
  | error e => exact .throw _
  | ok value => exact .pure value

theorem rawAttribute_local (pool : ConstantPool) : Local (rawAttribute pool) :=
  u2_local.bind fun _ => u4_local.bind fun _ => (bytes_local _).bind fun _ =>
    (follow_local _).bind fun _ => .pure _

theorem rawAttributes_local (pool : ConstantPool) : Local (rawAttributes pool) :=
  counted_local (rawAttribute_local pool)

theorem member_local (pool : ConstantPool) (wanted : String) (item : Reader α)
    (make : AccessFlags → String → String → Option α → β) :
    Local (member pool wanted item make) :=
  u2_local.bind fun _ => u2_local.bind fun _ => u2_local.bind fun _ =>
    (rawAttributes_local pool).bind fun _ => (Local.lift _).bind fun _ =>
      (follow_local _).bind fun _ => (follow_local _).bind fun _ => .pure _

theorem followAll_local (pool : ConstantPool) (indices : List PoolIndex) :
    Local (followAll pool indices) := by
  induction indices with
  | nil => exact .pure []
  | cons index rest ih => exact (follow_local _).bind fun _ => ih.bind fun _ => .pure _

theorem contents_local : Local contents := by
  refine u2_local.bind fun _ => u2_local.bind fun _ => constantPool_local.bind fun pool => ?_
  refine u2_local.bind fun _ => u2_local.bind fun _ => u2_local.bind fun superIndex => ?_
  refine (counted_local u2_local).bind fun _ => ?_
  refine (counted_local (member_local pool _ _ _)).bind fun _ => ?_
  refine (counted_local (member_local pool _ _ _)).bind fun _ => ?_
  refine (rawAttributes_local pool).bind fun _ => (follow_local _).bind fun _ => ?_
  dsimp only
  split
  · exact (Local.pure _).bind fun _ => (followAll_local pool _).bind fun _ => .pure _
  · exact ((follow_local _).map some).bind fun _ => (followAll_local pool _).bind fun _ => .pure _

theorem magic_ok {input rest : Bytes} (h : magic input = .ok ((), rest)) :
    input = 0xca :: 0xfe :: 0xba :: 0xbe :: rest := by
  unfold magic at h
  split at h
  · cases h
    rfl
  · cases h

theorem magic_short {input : Bytes} (h : input.length < 4) :
    magic input = .error .badMagic := by
  unfold magic
  split
  · simp at h
    omega
  · rfl

theorem classFile_magic (input : Bytes) :
    classFile (0xca :: 0xfe :: 0xba :: 0xbe :: input) = contents input := by
  have hmagic : magic (0xca :: 0xfe :: 0xba :: 0xbe :: input) = .ok ((), input) := rfl
  rw [classFile, bind_of_ok hmagic]

end Reader

namespace ClassFile

open Reader (contents)

theorem parse_short {input : Bytes} (h : input.length < 4) :
    parse input = .error .badMagic := by
  rw [parse, Reader.classFile, Reader.bind_of_error (Reader.magic_short h)]

theorem parse_ok {input : Bytes} {c : ClassFile} (h : parse input = .ok c) :
    ∃ taken, input = 0xca :: 0xfe :: 0xba :: 0xbe :: taken ∧ contents.Reads taken c := by
  unfold parse at h
  split at h
  · next hread =>
    cases h
    obtain ⟨_, middle, hmagic, hcontents⟩ := Reader.bind_ok_iff.1 hread
    obtain ⟨taken, rfl, hreads⟩ := Reader.contents_local _ _ _ hcontents
    rw [List.append_nil] at hmagic
    exact ⟨taken, Reader.magic_ok hmagic, hreads⟩
  · cases h
  · cases h

/-- **A class file ends where it ends.** If bytes are added to a class file, the error tells how
many. If some are missing at its end, then it is truncated, or not a class file if so many are
missing that the magic number is not complete. -/
theorem parse_delimited {input : Bytes} {c : ClassFile} (h : parse input = .ok c) :
    (∀ extra, extra ≠ [] → parse (input ++ extra) = .error (.trailing extra.length)) ∧
    ∀ part, part <+: input → part ≠ input →
      parse part = .error (if part.length < 4 then .badMagic else .truncated) := by
  obtain ⟨taken, rfl, hreads⟩ := parse_ok h
  constructor
  · intro extra hextra
    obtain ⟨b, rest, rfl⟩ := List.exists_cons_of_ne_nil hextra
    simp only [List.cons_append, parse, Reader.classFile_magic, hreads.followed]
  · rintro part ⟨missing, hparts⟩ hproper
    by_cases hshort : part.length < 4
    · rw [if_pos hshort, parse_short hshort]
    · rw [if_neg hshort]
      match part with
      | a :: b :: c :: d :: part =>
        simp only [List.cons_append, List.cons.injEq] at hparts
        obtain ⟨rfl, rfl, rfl, rfl, rfl⟩ := hparts
        have hmissing : missing ≠ [] := by
          rintro rfl
          simp at hproper
        rw [parse, Reader.classFile_magic, hreads.cut part missing rfl hmissing]

/-- The class `A`, which has no superclass and no members. -/
def bare : Bytes :=
  [0xca, 0xfe, 0xba, 0xbe, 0, 0, 0, 52, 0, 3, 7, 0, 2, 1, 0, 1, 65, 0, 33, 0, 1, 0, 0, 0, 0, 0, 0,
    0, 0, 0, 0]

theorem parse_bare :
    (∃ c, parse bare = .ok c) ∧ parse (bare ++ [0, 0]) = .error (.trailing 2) ∧
      parse (bare.take 16) = .error .truncated ∧ parse (bare.take 3) = .error .badMagic := by
  have hparse : ∃ c, parse bare = .ok c := by
    refine ⟨⟨0, 52, ⟨#[.classRef 2, .utf8 "A"]⟩, 33, "A", none, [], [], []⟩, ?_⟩
    decide +kernel
  obtain ⟨c, hc⟩ := hparse
  obtain ⟨hextra, hpart⟩ := parse_delimited hc
  exact ⟨⟨c, hc⟩, hextra [0, 0] (by simp), hpart _ (List.take_prefix _ _) (by decide),
    hpart _ (List.take_prefix _ _) (by decide)⟩

end ClassFile

end SymbolicBytecode

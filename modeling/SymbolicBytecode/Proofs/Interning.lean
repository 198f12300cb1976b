import Mathlib
import SymbolicBytecode.Proofs.Capacity

/-!
# One string object for each text

The table of literals only grows, and a new literal gets a position that no literal has. So over a
whole run two requests come to the same object just if they are for the same text. The objects of
the heap can be changed later, also those of literals; what a literal spells is therefore said of
the state right after the request that has made it.
-/
namespace SymbolicBytecode

open Relation (ReflTransGen)
open Session (ValueChange ThreadChange Change)

/-- The string objects of the literals are in the heap, and no object is there for two texts. -/
structure State.LiteralsApart (s : State) : Prop where
  live : ∀ text p, s.strings.get? text = some p → p < s.heap.size
  injective : ∀ text text' p, s.strings.get? text = some p → s.strings.get? text' = some p →
    text = text'

theorem State.LiteralsApart.of_le {s s' : State} (h : s.LiteralsApart)
    (hstrings : s'.strings = s.strings) (hheap : s.heap.size ≤ s'.heap.size) :
    s'.LiteralsApart := by
  constructor
  · intro text p hget
    rw [hstrings] at hget
    exact (h.live text p hget).trans_le hheap
  · rw [hstrings]
    exact h.injective

/-- No literal has a position beyond the heap, so a new literal may have it. -/
theorem State.LiteralsApart.of_insert {s s' : State} {text : String} {p : Nat}
    (h : s.LiteralsApart) (hstrings : s'.strings = s.strings.insert text p)
    (hbeyond : s.heap.size ≤ p) (hlive : p < s'.heap.size) : s'.LiteralsApart := by
  have hfree (text' : String) (q : Nat) (hq : s.strings.get? text' = some q) : q < p :=
    (h.live text' q hq).trans_le hbeyond
  constructor
  · intro text' q hq
    rw [hstrings, Table.get?_insert] at hq
    split at hq
    · cases hq
      exact hlive
    · exact (hfree text' q hq).trans hlive
  · intro text₁ text₂ q h₁ h₂
    rw [hstrings, Table.get?_insert] at h₁ h₂
    split at h₁ <;> split at h₂
    · next heq₁ heq₂ => exact heq₁.trans heq₂.symm
    · cases h₁
      exact absurd (hfree _ _ h₂) (lt_irrefl _)
    · cases h₂
      exact absurd (hfree _ _ h₁) (lt_irrefl _)
    · exact h.injective _ _ q h₁ h₂

/-- The object is a string, and its characters are the UTF-16 units of the text. -/
def State.Spells (s : State) (p : Nat) (text : String) : Prop :=
  s.classOf (.concrete p) = .ok stringClass ∧ ∃ chars,
    s.getField (.concrete p) "value" = .ok (.reference (.concrete chars)) ∧
    s.classOf (.concrete chars) = .ok "[C" ∧
    (Text.Utf16.encode text).length < 2 ^ 31 ∧
    s.getField (.concrete chars) "length" =
      .ok (.int (Int32.ofNat (Text.Utf16.encode text).length)) ∧
    ∀ i u, (Text.Utf16.encode text)[i]? = some u →
      s.getElement (.concrete chars) (Int32.ofNat i) = .ok (.int (Int32.ofNat u.toNat))

section Spelling

theorem toInt32_toUInt32 (u : UInt16) : u.toUInt32.toInt32 = Int32.ofNat u.toNat :=
  Int32.toBitVec_inj.1 (BitVec.ofNat_toNat 32 u.toBitVec).symm

/-- The units are read back, since an index can name them all. -/
theorem Exec.getElement_charArray {text : String} {i : Nat} {u : UInt16}
    (hshort : Text.IsShort text) (hget : (Text.Utf16.encode text)[i]? = some u) :
    (charArray text).getElement (Int32.ofNat i) = .ok (.int (Int32.ofNat u.toNat)) := by
  obtain ⟨hi, hu⟩ := List.getElem?_eq_some_iff.1 hget
  rw [charArray_of_isShort hshort, HeapObject.getElement, List.size_toArray, List.length_map,
    HeapObject.checkIndex_ofNat hshort.le hi, ← toInt32_toUInt32]
  simp [bind, Except.bind, pure, Except.pure, hget]

theorem State.object_concrete {s : State} {p : Nat} {o : HeapObject}
    (hget : s.heap.get? p = some o) : s.object (.concrete p) = .ok o := by
  simp [object, objectPosition, resolve?, Heap.find, hget, bind, Except.bind]

theorem State.spells_of_get? {s : State} {p chars : Nat} {text : String}
    {fields : Table FieldType} (hstring : s.heap.get? p = some (Exec.literalObject fields chars))
    (hchars : s.heap.get? chars = some (Exec.charArray text)) (hshort : Text.IsShort text) :
    s.Spells p text := by
  have hstring := object_concrete hstring
  have hchars := object_concrete hchars
  refine ⟨?_, chars, ?_, ?_, hshort, ?_, fun i u hu => ?_⟩
  · rw [classOf, hstring]
    rfl
  · rw [getField, hstring]
    simp [Exec.literalObject, HeapObject.getField, bind, Except.bind]
  · rw [classOf, hchars]
    rfl
  · rw [getField, hchars, Exec.charArray_of_isShort hshort]
    simp [HeapObject.getField, bind, Except.bind]
  · rw [getElement, hchars]
    exact Exec.getElement_charArray hshort hu

theorem Exec.Interns.spells {text : String} {σ τ : Session} {p : Nat}
    (h : Interns text σ (.ok p) τ) (hσ : σ.state.LiteralsApart)
    (habsent : σ.state.heap.get? p = none) : τ.state.Spells p text := by
  cases h with
  | known hget => exact absurd (hσ.live text p hget) (Heap.get?_eq_none_iff.1 habsent).not_gt
  | made _ _ _ hfits =>
    refine State.spells_of_get? (Heap.get?_set _ ?_ _ |>.trans (if_pos rfl)) ?_ hfits.1
    · simp [Heap.size_add]
    · rw [Heap.get?_set _ (by simp [Heap.size_add])]
      simp [Heap.get?_add, Heap.size_add]

end Spelling

/-- The request is what a call in the session has come to. -/
def LiteralRequest.MadeIn (r : LiteralRequest) (σ : Session) : Prop :=
  r.before = σ.state ∧ ((Exec.internString r.text).apply σ).1 = r.answer ∧
    ((Exec.internString r.text).apply σ).2.state = r.after

namespace Session

variable {σ ρ τ : Session}

/-- The literals are as before and no object is taken away. -/
structure SameLiterals (σ τ : Session) : Prop where
  strings : τ.state.strings = σ.state.strings
  heap : σ.state.heap.size ≤ τ.state.heap.size
  requests : τ.requests = σ.requests

theorem SameLiterals.trans (h : SameLiterals σ ρ) (h' : SameLiterals ρ τ) : SameLiterals σ τ :=
  ⟨h'.strings.trans h.strings, h.heap.trans h'.heap, h'.requests.trans h.requests⟩

theorem sameLiterals_adding (σ : Session) (o : HeapObject) : SameLiterals σ (σ.adding o) :=
  ⟨rfl, by simp [adding, Heap.size_add], rfl⟩

/-- What a step means for the literals. -/
inductive LiteralChange : Session → Session → Prop
  | none {σ τ : Session} (hsame : SameLiterals σ τ) : LiteralChange σ τ
  | request {σ τ : Session} {text : String} {r : Except Fault Nat}
      (hrun : (Exec.internString text).apply σ = (r, τ)) : LiteralChange σ τ

section Steps

variable {lax symbolic : Bool} {name : String} {enter : Table Value → Session → Session}

theorem SameLiterals.step (h : SameLiterals σ τ) : ReflTransGen LiteralChange σ τ :=
  .single (.none h)

theorem ThreadChange.sameLiterals (h : ThreadChange σ τ) : SameLiterals σ τ := by
  cases h with
  | raise => exact ⟨rfl, (sameLiterals_adding σ _).heap, rfl⟩
  | _ => exact ⟨rfl, le_rfl, rfl⟩

theorem ValueChange.literals (h : ValueChange σ τ) : LiteralChange σ τ := by
  cases h with
  | intern hrun => exact .request hrun
  | symbol => exact .none ⟨rfl, le_rfl, rfl⟩

theorem literals_of_enters (h : Exec.Enters symbolic name enter σ τ)
    (henter : ∀ values ρ, SameLiterals ρ (enter values ρ)) : ReflTransGen LiteralChange σ τ := by
  have hvalues {ρ : Session} (hsteps : ReflTransGen ValueChange σ ρ) :
      ReflTransGen LiteralChange σ ρ :=
    ReflTransGen.mono (fun _ _ => ValueChange.literals) _ _ hsteps
  cases h with
  | present => exact .refl
  | refused _ hsteps => exact hvalues hsteps
  | entered _ _ _ hmade =>
    exact (hvalues ((Exec.initialValues_madeOf _ _ _ _).of_apply hmade)).tail (.none (henter _ _))

theorem literals_of_createKlass (name : String) (σ : Session) :
    ReflTransGen LiteralChange σ ((Exec.createKlass name).apply σ).2 :=
  literals_of_enters (Exec.createKlass_enters name σ) fun _ _ => ⟨rfl, le_rfl, rfl⟩

theorem Change.literals (h : Change lax σ τ) : ReflTransGen LiteralChange σ τ := by
  have hassuming (ρ : Session) (c : Clause) : SameLiterals ρ (ρ.assuming c) := ⟨rfl, le_rfl, rfl⟩
  cases h with
  | thread h => exact h.sameLiterals.step
  | value h => exact .single h.literals
  | allocate o => exact (sameLiterals_adding σ o).step
  | store => exact .single (.none ⟨rfl, (Heap.size_set _ _ _).ge, rfl⟩)
  | expand => exact ((sameLiterals_adding σ _).trans (hassuming _ _)).step
  | create name => exact literals_of_createKlass name σ
  | declare => exact (hassuming σ _).step.trans (literals_of_createKlass _ _)
  | presume hget =>
    exact literals_of_enters (Exec.assumeOneInitialized_enters hget) fun _ _ => ⟨rfl, le_rfl, rfl⟩
  | _ => exact .single (.none ⟨rfl, le_rfl, rfl⟩)

theorem run_literals (σ : Session) (ops : List (Engine × Operation)) :
    ReflTransGen LiteralChange σ (σ.run ops) :=
  run_preserves (ReflTransGen LiteralChange σ)
    (fun _ _ (hchange : Change true _ _) hsteps => hsteps.trans hchange.literals)
    (fun ρ o hsteps => hsteps.tail (.none (sameLiterals_adding ρ o))) (by simp) .refl

end Steps

/-- What is known about the requests that a session has seen: their answers are in the table of
literals, and what is in the table are their answers. -/
structure Answered (σ : Session) : Prop where
  apart : σ.state.LiteralsApart
  calls : ∀ r ∈ σ.requests, ∃ ρ, r.MadeIn ρ
  answers : ∀ r ∈ σ.requests, ∀ p, r.answer = .ok p → σ.state.strings.get? r.text = some p
  spelled : ∀ r ∈ σ.requests, ∀ p, r.answer = .ok p → r.before.heap.get? p = none →
    r.after.Spells p r.text
  asked : ∀ text p, σ.state.strings.get? text = some p →
    ∃ r ∈ σ.requests, r.text = text ∧ r.answer = .ok p

/-- A call of `internString` leaves its request on top of the earlier ones. -/
theorem requests_of_internString {text : String} {r : Except Fault Nat}
    (hrun : (Exec.internString text).apply σ = (r, τ)) :
    τ.requests = ⟨text, σ.state, r, τ.state⟩ :: σ.requests := by
  obtain ⟨ρ, hinterns, rfl⟩ := Exec.internString_interns hrun
  have hsame : ρ.requests = σ.requests := by cases hinterns <;> rfl
  simp only [hsame]

/-- A literal that was there stays, and a new one gets a position beyond the heap. -/
theorem literals_of_internString {text : String} {r : Except Fault Nat}
    (hrun : (Exec.internString text).apply σ = (r, τ)) :
    (τ.state.strings = σ.state.strings ∧ σ.state.heap.size ≤ τ.state.heap.size ∧
        ∀ p, r = .ok p → σ.state.strings.get? text = some p) ∨
      ∃ p, r = .ok p ∧ σ.state.strings.get? text = none ∧
        τ.state.strings = σ.state.strings.insert text p ∧
        σ.state.heap.size ≤ p ∧ p < τ.state.heap.size := by
  obtain ⟨ρ, hinterns, rfl⟩ := Exec.internString_interns hrun
  cases hinterns with
  | known hget =>
    refine .inl ⟨rfl, le_rfl, fun p hp => ?_⟩
    cases hp
    exact hget
  | refused => exact .inl ⟨rfl, le_rfl, by simp⟩
  | half => exact .inl ⟨rfl, (sameLiterals_adding σ _).heap, by simp⟩
  | @bare _ fields =>
    have hadded := (sameLiterals_adding σ (Exec.charArray text)).trans
      (sameLiterals_adding _ (.ofFields stringClass fields))
    exact .inl ⟨rfl, hadded.heap, by simp⟩
  | made hnew =>
    refine .inr ⟨_, rfl, hnew, rfl, by simp, ?_⟩
    simp [Heap.size_set, Heap.size_add]

theorem Answered.of_sameLiterals (hσ : σ.Answered) (h : SameLiterals σ τ) : τ.Answered := by
  obtain ⟨hstrings, hheap, hrequests⟩ := h
  constructor
  · exact hσ.apart.of_le hstrings hheap
  · rw [hrequests]
    exact hσ.calls
  · rw [hrequests, hstrings]
    exact hσ.answers
  · rw [hrequests]
    exact hσ.spelled
  · rw [hrequests, hstrings]
    exact hσ.asked

theorem Answered.of_internString {text : String} {r : Except Fault Nat} (hσ : σ.Answered)
    (hrun : (Exec.internString text).apply σ = (r, τ)) : τ.Answered := by
  have hcall : (LiteralRequest.mk text σ.state r τ.state).MadeIn σ := by
    rw [LiteralRequest.MadeIn, hrun]
    exact ⟨rfl, rfl, rfl⟩
  have hspelled (p : Nat) (hok : r = .ok p) (habsent : σ.state.heap.get? p = none) :
      τ.state.Spells p text := by
    obtain ⟨ρ, hinterns, rfl⟩ := Exec.internString_interns hrun
    cases hok
    exact hinterns.spells hσ.apart habsent
  have hcalls : ∀ q ∈ τ.requests, ∃ ρ, q.MadeIn ρ := by
    rw [requests_of_internString hrun]
    exact List.forall_mem_cons.2 ⟨⟨σ, hcall⟩, hσ.calls⟩
  have hspells : ∀ q ∈ τ.requests, ∀ p, q.answer = .ok p → q.before.heap.get? p = none →
      q.after.Spells p q.text := by
    rw [requests_of_internString hrun]
    exact List.forall_mem_cons.2 ⟨hspelled, hσ.spelled⟩
  rcases literals_of_internString hrun with
    ⟨hstrings, hheap, hknown⟩ | ⟨p, rfl, hnew, hstrings, hbeyond, hlive⟩
  · refine ⟨hσ.apart.of_le hstrings hheap, hcalls, ?_, hspells, fun text' q hq => ?_⟩
    · rw [requests_of_internString hrun, hstrings]
      exact List.forall_mem_cons.2 ⟨hknown, hσ.answers⟩
    · rw [hstrings] at hq
      obtain ⟨q', hq', hanswer⟩ := hσ.asked text' q hq
      rw [requests_of_internString hrun]
      exact ⟨q', List.mem_cons_of_mem _ hq', hanswer⟩
  have hget (text' : String) : τ.state.strings.get? text' =
      if text' = text then some p else σ.state.strings.get? text' := by
    rw [hstrings, Table.get?_insert]
  refine ⟨hσ.apart.of_insert hstrings hbeyond hlive, hcalls, ?_, hspells, fun text' q hq => ?_⟩
  · rw [requests_of_internString hrun]
    refine List.forall_mem_cons.2 ⟨fun q hq => ?_, fun q hq p' hok => ?_⟩
    · cases hq
      exact (hget text).trans (if_pos rfl)
    · -- The new entry takes no other's place, as the text had none.
      have hold := hσ.answers q hq p' hok
      rw [hget, if_neg ?_]
      · exact hold
      · rintro heq
        rw [heq, hnew] at hold
        cases hold
  · rw [requests_of_internString hrun]
    rw [hget] at hq
    split at hq
    · next heq =>
      refine ⟨_, List.mem_cons_self, heq.symm, ?_⟩
      rw [Option.some.inj hq]
    · obtain ⟨q', hq', hanswer⟩ := hσ.asked text' q hq
      exact ⟨q', List.mem_cons_of_mem _ hq', hanswer⟩

theorem LiteralChange.answered (h : LiteralChange σ τ) (hσ : σ.Answered) : τ.Answered := by
  cases h with
  | none hsame => exact hσ.of_sameLiterals hsame
  | request hrun => exact hσ.of_internString hrun

theorem LiteralChange.requests (h : LiteralChange σ τ) : σ.requests <:+ τ.requests := by
  cases h with
  | none hsame => rw [hsame.requests]
  | request hrun =>
    rw [requests_of_internString hrun]
    exact List.suffix_cons _ _

theorem run_answered (hσ : σ.Answered) (ops : List (Engine × Operation)) : (σ.run ops).Answered :=
  inv_of_steps Answered (fun _ _ h => h.answered) (σ.run_literals ops) hσ

/-- Requests are never forgotten. -/
theorem run_requests (σ : Session) (ops : List (Engine × Operation)) :
    σ.requests <:+ (σ.run ops).requests :=
  inv_of_steps (fun τ => σ.requests <:+ τ.requests) (fun _ _ h hσ => hσ.trans h.requests)
    (σ.run_literals ops) (List.suffix_refl _)

/-- A direct call is among the requests of the run. -/
theorem run_internString (σ : Session) {ops earlier later : List (Engine × Operation)}
    {engine : Engine} {text : String}
    (hops : ops = earlier ++ (engine, .internString text) :: later) :
    ∃ r ∈ (σ.run ops).requests, r.text = text ∧ r.MadeIn (σ.run earlier) := by
  rcases hrun : (Exec.internString text).apply (σ.run earlier) with ⟨r, τ⟩
  have hafter : Operation.after engine (σ.run earlier) (.internString text) = τ := by
    rw [Operation.after, hrun]
  have hmem : (LiteralRequest.mk text (σ.run earlier).state r τ.state) ∈ τ.requests := by
    rw [requests_of_internString hrun]
    exact List.mem_cons_self
  have hall : σ.run ops = τ.run later := by rw [hops, run_append, run, hafter]
  refine ⟨_, hall ▸ (run_requests τ later).subset hmem, rfl, ?_⟩
  rw [LiteralRequest.MadeIn, hrun]
  exact ⟨rfl, rfl, rfl⟩

/-- **One string object for each text.** The requests of a run are calls, and all that were made
directly are among them. Over a run, whether its operations fail or not, two requests come to the
same object just if they are for the same text. A request that comes to an object that was not there
has made a string that spells the text. There are no literals but those that were asked for. -/
theorem run_interns (h : Hierarchy) (limit : Option Nat) (host : Host)
    (ops : List (Engine × Operation)) :
    let σ := start (.create h limit host)
    let τ := σ.run ops
    (∀ r ∈ τ.requests, ∃ ρ, r.MadeIn ρ) ∧
    (∀ earlier engine text later, ops = earlier ++ (engine, .internString text) :: later →
      ∃ r ∈ τ.requests, r.text = text ∧ r.MadeIn (σ.run earlier)) ∧
    (∀ r ∈ τ.requests, ∀ r' ∈ τ.requests, ∀ p q, r.answer = .ok p → r'.answer = .ok q →
      (p = q ↔ r.text = r'.text)) ∧
    (∀ r ∈ τ.requests, ∀ p, r.answer = .ok p → r.before.heap.get? p = none →
      r.after.Spells p r.text) ∧
    ∀ text p, τ.state.strings.get? text = some p →
      ∃ r ∈ τ.requests, r.text = text ∧ r.answer = .ok p := by
  intro σ τ
  have hstart : σ.Answered := by
    constructor
    · constructor <;> simp [σ, start, State.create]
    all_goals simp [σ, start, State.create]
  have hτ : τ.Answered := run_answered hstart ops
  refine ⟨hτ.calls, fun _ _ _ _ => run_internString σ, fun r hr r' hr' p q hp hq => ?_, hτ.spelled,
    hτ.asked⟩
  have hget := hτ.answers r hr p hp
  have hget' := hτ.answers r' hr' q hq
  constructor
  · rintro rfl
    exact hτ.apart.injective _ _ p hget hget'
  · intro htext
    rw [htext] at hget
    exact Option.some.inj (hget.symm.trans hget')

/-- A text is asked for, then a class that has it as a constant is initialized, and then another
text is asked for. -/
def bannerRun : List (Engine × Operation) :=
  [.internString "welcome", .initializeClass "Banner", .internString "goodbye"].map
    (⟨none, .ample, .standard, .fixed false, .standard⟩, ·)

/-- The initialization asks for the text again and comes to the same object. The latest request is
the first. -/
theorem run_interns_banner :
    let τ := (start (.create (Hierarchy.bootstrap.add banner) none .ample)).run bannerRun
    τ.requests.map (fun r => (r.text, r.answer)) =
      [("goodbye", .ok 3), ("welcome", .ok 1), ("welcome", .ok 1)] ∧
    ∀ r ∈ τ.requests, ∀ r' ∈ τ.requests, ∀ p q, r.answer = .ok p → r'.answer = .ok q →
      (p = q ↔ r.text = r'.text) :=
  ⟨by decide +kernel, (run_interns _ _ _ _).2.2.1⟩

end Session

end SymbolicBytecode

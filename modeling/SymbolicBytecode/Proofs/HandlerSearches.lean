import Mathlib
import SymbolicBytecode.Proofs.Subtyping
import SymbolicBytecode.Proofs.Unwinding

/-!
# Strict and lenient searches for a handler

Both searches go through the handlers that cover the current position, in order. What they make of a
handler depends on whether it is well-formed and whether it is for the exception, and they differ
only where it is malformed: there the strict search gives up and the lenient one goes on. So a
strict search that does not give up finds what the lenient one finds, and the lenient search is a
strict search that has no malformed handlers before it.
-/
namespace SymbolicBytecode

instance (h : Hierarchy) : DecidableRel h.Below := fun _ _ =>
  decidable_of_iff _ Hierarchy.isSubclass_iff_below

namespace Frame

variable {f : Frame} {h : Hierarchy} {thrown : String} {entry : Handler} {rest : List Handler}
  {search : HandlerSearch} {e : Fault}

/-- The handler is for all exceptions, or its catch type denotes a class. -/
def HasCatchType (f : Frame) (entry : Handler) : Prop :=
  entry.catchType = 0 ∨ ∃ name, f.owner.pool.className entry.catchType = .ok name

/-- The handler has a catch type and begins inside the code. -/
def WellFormed (f : Frame) (entry : Handler) : Prop :=
  f.HasCatchType entry ∧ entry.handlerPc.toNat < f.code.length

/-- The handler is for all exceptions, or its catch type denotes a supertype of their class. -/
def Matches (f : Frame) (h : Hierarchy) (thrown : String) (entry : Handler) : Prop :=
  entry.catchType = 0 ∨
    ∃ name, f.owner.pool.className entry.catchType = .ok name ∧ h.Below thrown name

def Usable (f : Frame) (h : Hierarchy) (thrown : String) (entry : Handler) : Prop :=
  f.WellFormed entry ∧ f.Matches h thrown entry

/-- The handler makes a strict search fail: its catch type denotes no class, or it is for the
exception and begins outside the code. -/
inductive Offends (f : Frame) (h : Hierarchy) (thrown : String) (entry : Handler) : Fault → Prop
  | catchType {e : InvalidIndex} (hcatch : entry.catchType ≠ 0)
      (hname : f.owner.pool.className entry.catchType = .error e) :
      Offends f h thrown entry (.invalidIndex e)
  | target (hmatches : f.Matches h thrown entry)
      (houtside : f.code.length ≤ entry.handlerPc.toNat) :
      Offends f h thrown entry (.invalidProgramCounter f.signature entry.handlerPc.toNat)

section Decidable

instance : DecidablePred f.HasCatchType := fun entry =>
  match hname : f.owner.pool.className entry.catchType with
  | .ok name => .isTrue (.inr ⟨name, hname⟩)
  | .error _ => decidable_of_iff (entry.catchType = 0) (by simp [HasCatchType, hname])

instance : DecidablePred f.WellFormed := fun _ => inferInstanceAs (Decidable (_ ∧ _))

instance : DecidablePred (f.Matches h thrown) := fun entry =>
  match hname : f.owner.pool.className entry.catchType with
  | .ok name =>
    decidable_of_iff (entry.catchType = 0 ∨ h.Below thrown name) (by simp [Matches, hname])
  | .error _ => decidable_of_iff (entry.catchType = 0) (by simp [Matches, hname])

instance : DecidablePred (f.Usable h thrown) := fun _ => inferInstanceAs (Decidable (_ ∧ _))

end Decidable

section Entries

theorem catches_eq_true_iff :
    catches h f.owner thrown entry = .ok true ↔ f.Matches h thrown entry := by
  unfold catches Matches
  by_cases hcatch : entry.catchType = 0
  · simp [hcatch]
  · cases f.owner.pool.className entry.catchType <;>
      simp [hcatch, bind, Except.bind, pure, Except.pure, Hierarchy.isSubclass_iff_below]

theorem catches_eq_error_iff {d : InvalidIndex} :
    catches h f.owner thrown entry = .error d ↔
      entry.catchType ≠ 0 ∧ f.owner.pool.className entry.catchType = .error d := by
  unfold catches
  by_cases hcatch : entry.catchType = 0
  · simp [hcatch]
  · cases f.owner.pool.className entry.catchType <;>
      simp [hcatch, bind, Except.bind, pure, Except.pure]

/-- A handler can be used, or makes a strict search fail, or is for other exceptions. -/
theorem usable_or_offends (f : Frame) (h : Hierarchy) (thrown : String) (entry : Handler) :
    f.Usable h thrown entry ∨ (∃ e, f.Offends h thrown entry e) ∨
      f.HasCatchType entry ∧ ¬f.Matches h thrown entry := by
  by_cases hcatch : f.HasCatchType entry
  · by_cases hmatches : f.Matches h thrown entry
    · by_cases hinside : entry.handlerPc.toNat < f.code.length
      · exact .inl ⟨⟨hcatch, hinside⟩, hmatches⟩
      · exact .inr (.inl ⟨_, .target hmatches (Nat.not_lt.1 hinside)⟩)
    · exact .inr (.inr ⟨hcatch, hmatches⟩)
  · obtain ⟨hne, hnone⟩ := not_or.1 hcatch
    cases hname : f.owner.pool.className entry.catchType with
    | ok name => exact absurd ⟨name, hname⟩ hnone
    | error d => exact .inr (.inl ⟨_, .catchType hne hname⟩)

theorem Offends.not_wellFormed (hoffends : f.Offends h thrown entry e) : ¬f.WellFormed entry := by
  rintro ⟨hcatch, hinside⟩
  cases hoffends with
  | catchType hne hname => simp [HasCatchType, hne, hname] at hcatch
  | target _ houtside => omega

/-- A handler for other exceptions with a catch type offends nobody. -/
theorem Offends.matches_of_hasCatchType (hoffends : f.Offends h thrown entry e)
    (hcatch : f.HasCatchType entry) : f.Matches h thrown entry := by
  cases hoffends with
  | catchType hne hname => simp [HasCatchType, hne, hname] at hcatch
  | target hmatches => exact hmatches

theorem firstHandler_usable (hentry : f.Usable h thrown entry) :
    f.firstHandler h thrown search (entry :: rest) = .ok (some entry.handlerPc.toNat) := by
  simp [firstHandler, catches_eq_true_iff.2 hentry.2, hentry.1.2]

/-- The only difference between the searches. -/
theorem Offends.firstHandler_eq (hoffends : f.Offends h thrown entry e) :
    f.firstHandler h thrown .strict (entry :: rest) = .error e ∧
      f.firstHandler h thrown .lenient (entry :: rest) =
        f.firstHandler h thrown .lenient rest := by
  cases hoffends with
  | catchType hne hname =>
    simp [firstHandler, catches_eq_error_iff.2 ⟨hne, hname⟩]
  | target hmatches houtside =>
    simp [firstHandler, catches_eq_true_iff.2 hmatches, Nat.not_lt.2 houtside, invalidPc]

theorem Offends.unique {d : Fault} (hoffends : f.Offends h thrown entry e)
    (hoffends' : f.Offends h thrown entry d) : e = d := by
  have hfails : f.firstHandler h thrown .strict [entry] = .error e := hoffends.firstHandler_eq.1
  exact Except.error.inj (hfails.symm.trans hoffends'.firstHandler_eq.1)

theorem firstHandler_other (hcatch : f.HasCatchType entry) (hother : ¬f.Matches h thrown entry) :
    f.firstHandler h thrown search (entry :: rest) = f.firstHandler h thrown search rest := by
  have hfalse : catches h f.owner thrown entry = .ok false := by
    cases hcatches : catches h f.owner thrown entry with
    | ok caught =>
      cases caught with
      | false => rfl
      | true => exact absurd (catches_eq_true_iff.1 hcatches) hother
    | error d =>
      obtain ⟨hne, hname⟩ := catches_eq_error_iff.1 hcatches
      simp [HasCatchType, hne, hname] at hcatch
  simp [firstHandler, hfalse]

end Entries

section Tables

variable {entries : List Handler}

theorem firstHandler_lenient :
    f.firstHandler h thrown .lenient entries =
      .ok ((entries.find? (f.Usable h thrown ·)).map (·.handlerPc.toNat)) := by
  induction entries with
  | nil => rfl
  | cons entry rest ih =>
    rcases f.usable_or_offends h thrown entry with husable | ⟨e, hoffends⟩ | ⟨hcatch, hother⟩
    · simp [firstHandler_usable husable, husable]
    · have hunusable : ¬f.Usable h thrown entry := fun husable => hoffends.not_wellFormed husable.1
      simp [hoffends.firstHandler_eq.2, hunusable, ih]
    · have hunusable : ¬f.Usable h thrown entry := fun husable => hother husable.2
      simp [firstHandler_other hcatch hother, hunusable, ih]

/-- Where no handler is malformed, the searches are the same. -/
theorem firstHandler_strict_of_wellFormed (hentries : ∀ entry ∈ entries, f.WellFormed entry) :
    f.firstHandler h thrown .strict entries = f.firstHandler h thrown .lenient entries := by
  induction entries with
  | nil => rfl
  | cons entry rest ih =>
    obtain ⟨hentry, hrest⟩ := List.forall_mem_cons.1 hentries
    rcases f.usable_or_offends h thrown entry with husable | ⟨e, hoffends⟩ | ⟨hcatch, hother⟩
    · rw [firstHandler_usable husable, firstHandler_usable husable]
    · exact absurd hentry hoffends.not_wellFormed
    · rw [firstHandler_other hcatch hother, firstHandler_other hcatch hother, ih hrest]

theorem firstHandler_lenient_of_strict {r : Option Nat}
    (hfound : f.firstHandler h thrown .strict entries = .ok r) :
    f.firstHandler h thrown .lenient entries = .ok r := by
  induction entries with
  | nil => exact hfound
  | cons entry rest ih =>
    rcases f.usable_or_offends h thrown entry with husable | ⟨e, hoffends⟩ | ⟨hcatch, hother⟩
    · rwa [firstHandler_usable husable] at hfound ⊢
    · cases hoffends.firstHandler_eq.1.symm.trans hfound
    · rw [firstHandler_other hcatch hother] at hfound ⊢
      exact ih hfound

/-- Of the handlers that cover the position, the first one that is not for other exceptions makes a
strict search fail. -/
def MeetsOffence (f : Frame) (h : Hierarchy) (thrown : String) (entries : List Handler)
    (e : Fault) : Prop :=
  ∃ before entry after, entries = before ++ entry :: after ∧ entry.covers f.pc ∧
    f.Offends h thrown entry e ∧
    ∀ b ∈ before, b.covers f.pc → f.HasCatchType b ∧ ¬f.Matches h thrown b

theorem meetsOffence_cons :
    f.MeetsOffence h thrown (entry :: rest) e ↔
      entry.covers f.pc ∧ f.Offends h thrown entry e ∨
      (entry.covers f.pc → f.HasCatchType entry ∧ ¬f.Matches h thrown entry) ∧
        f.MeetsOffence h thrown rest e := by
  constructor
  · rintro ⟨before, offender, after, hsplit, hcovers, hoffends, hbefore⟩
    rcases List.cons_eq_append_iff.1 hsplit with ⟨rfl, hhead⟩ | ⟨before, rfl, rfl⟩
    · obtain ⟨rfl, rfl⟩ := List.cons.inj hhead
      exact .inl ⟨hcovers, hoffends⟩
    · obtain ⟨hentry, hbefore⟩ := List.forall_mem_cons.1 hbefore
      exact .inr ⟨hentry, before, offender, after, rfl, hcovers, hoffends, hbefore⟩
  · rintro (⟨hcovers, hoffends⟩ |
      ⟨hentry, before, offender, after, rfl, hcovers, hoffends, hbefore⟩)
    · exact ⟨[], entry, rest, rfl, hcovers, hoffends, by simp⟩
    · exact ⟨entry :: before, offender, after, rfl, hcovers, hoffends,
        List.forall_mem_cons.2 ⟨hentry, hbefore⟩⟩

theorem firstHandler_strict_error_iff :
    f.firstHandler h thrown .strict (entries.filter (·.covers f.pc)) = .error e ↔
      f.MeetsOffence h thrown entries e := by
  induction entries with
  | nil => simp [firstHandler, MeetsOffence]
  | cons entry rest ih =>
    rw [meetsOffence_cons]
    by_cases hcovers : entry.covers f.pc
    · rw [List.filter_cons, if_pos hcovers]
      rcases f.usable_or_offends h thrown entry with husable | ⟨d, hoffends⟩ | ⟨hcatch, hother⟩
      · have hsound : ¬f.Offends h thrown entry e := fun ho => ho.not_wellFormed husable.1
        simp [firstHandler_usable husable, hcovers, hsound, husable.2]
      · have hdecisive : ¬(f.HasCatchType entry ∧ ¬f.Matches h thrown entry) := by
          rintro ⟨hcatch, hother⟩
          exact hother (hoffends.matches_of_hasCatchType hcatch)
        have hfault : d = e ↔ f.Offends h thrown entry e := ⟨(· ▸ hoffends), hoffends.unique⟩
        simp [hoffends.firstHandler_eq.1, hcovers, hdecisive, hfault]
      · have hsound : ¬f.Offends h thrown entry e :=
          fun ho => hother (ho.matches_of_hasCatchType hcatch)
        simp [firstHandler_other hcatch hother, hcovers, hsound, hcatch, hother, ih]
    · simp [hcovers, ih]

end Tables

/-- **How the searches for a handler agree.** Let the position of a frame be inside its code. Then
the lenient search finds the first handler that covers the position, is well-formed and is for the
exception. A strict search finds the same in the table without its malformed handlers, and in the
whole table unless it fails. It fails just if a handler that covers the position has no catch type,
or is for the exception and begins outside the code, and those that cover the position before it
have catch types and are for other exceptions. -/
theorem findHandler_agrees (h : Hierarchy) (thrown : String) (hpc : f.pc < f.code.length) :
    f.findHandler h thrown .lenient =
      .ok ((f.handlers.find? fun entry => entry.covers f.pc ∧ f.Usable h thrown entry).map
        (·.handlerPc.toNat)) ∧
    ({ f with handlers := f.handlers.filter (f.WellFormed ·) } : Frame).findHandler h thrown
      .strict = f.findHandler h thrown .lenient ∧
    (∀ r, f.findHandler h thrown .strict = .ok r → f.findHandler h thrown .lenient = .ok r) ∧
    ∀ e, f.findHandler h thrown .strict = .error e ↔ ∃ before entry after,
      f.handlers = before ++ entry :: after ∧ entry.covers f.pc ∧ f.Offends h thrown entry e ∧
      ∀ b ∈ before, b.covers f.pc → f.HasCatchType b ∧ ¬f.Matches h thrown b := by
  simp only [findHandler, if_pos hpc]
  refine ⟨?_, ?_, fun r => firstHandler_lenient_of_strict, fun e => firstHandler_strict_error_iff⟩
  · rw [firstHandler_lenient, List.find?_filter]
    simp
  · have hentries : ∀ entry ∈ (f.handlers.filter (f.WellFormed ·)).filter (·.covers f.pc),
        f.WellFormed entry := by
      simp
    rw [f.firstHandler_with _ f.operands, firstHandler_strict_of_wellFormed hentries,
      firstHandler_lenient, firstHandler_lenient, List.find?_filter, List.find?_filter,
      List.find?_filter]
    congr 3
    funext entry
    by_cases hentry : f.WellFormed entry <;> simp [Usable, hentry]

/-- Of the handlers that cover the position, the first is for other exceptions and begins outside
the code, the second has no catch type, and the last can be used. -/
def guardedFrame : Frame :=
  { Exec.strayFrame with
    owner := { Bootstrap.object.build with pool := ⟨#[.utf8 "p/Other", .classRef 1]⟩ }
    code := [0x00, 0x00, 0xb1]
    handlers := [⟨0, 1, 50, 2⟩, ⟨0, 1, 1, 42⟩, ⟨1, 2, 1, 0⟩, ⟨0, 1, 2, 0⟩] }

/-- The strict search gets past the first malformed handler and fails at the second. -/
theorem findHandler_guardedFrame :
    guardedFrame.pc < guardedFrame.code.length ∧
    guardedFrame.findHandler .empty "p/Thrown" .lenient = .ok (some 2) ∧
    guardedFrame.findHandler .empty "p/Thrown" .strict = .error (.invalidIndex ⟨42⟩) := by
  have hpc : guardedFrame.pc < guardedFrame.code.length := by decide
  obtain ⟨hlenient, -, -, hstrict⟩ := findHandler_agrees .empty "p/Thrown" hpc
  refine ⟨hpc, ?_, (hstrict _).2 ⟨[⟨0, 1, 50, 2⟩], ⟨0, 1, 1, 42⟩, _, rfl, rfl, ?_, ?_⟩⟩
  · rw [hlenient]
    decide +kernel
  · exact .catchType (by decide) rfl
  · decide +kernel

end Frame

end SymbolicBytecode

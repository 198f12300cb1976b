import Mathlib
import SymbolicBytecode.Proofs.Allocation

/-!
# Literals and the values of static fields

A new literal takes two places of the heap, one for its characters and one for the string. So the
values of the static fields of a class can be made unless the heap is full or one of the fields has
no value, and in the latter case they can never be made.
-/
namespace SymbolicBytecode

/-- The field has a type, and its constant, if it has one, can be made a value. -/
def Hierarchy.Supplies (h : Hierarchy) (host : Host) (c : ClassFile) (f : Field) : Prop :=
  (∃ type, FieldType.parse f.descriptor = .ok type) ∧
    ∀ index, f.constantValue = some index → ∃ literal, c.pool.literal index = .ok literal ∧
      ∀ text, literal = .string text → h.MakesStrings ∧ host.Fits text

/-- There are only literals that can be made. -/
def State.Literate (s : State) : Prop :=
  ∀ text p, s.strings.get? text = some p → s.hierarchy.MakesStrings ∧ s.host.Fits text

theorem State.isFull_iff {s : State} :
    s.isFull ↔ ∃ limit, s.heapLimit = some limit ∧ limit ≤ s.occupied := by
  unfold isFull
  split <;> simp [*]

/-- What the making of values does to a session, one value at a time. -/
inductive Session.ValueChange : Session → Session → Prop
  | intern {σ τ : Session} {text : String} {r : Except Fault Nat}
      (hrun : (Exec.internString text).apply σ = (r, τ)) : ValueChange σ τ
  | symbol (σ : Session) :
      ValueChange σ { σ with state := { σ.state with symbolCount := σ.state.symbolCount + 1 } }

open Session (ValueChange)

namespace Exec

variable {σ τ : Session} {e : Fault}

namespace Interns

variable {text : String} {r : Except Fault Nat}

theorem fault (h : Interns text σ (.error e) τ) :
    τ.state.isFull ∨ ¬(σ.state.hierarchy.MakesStrings ∧ σ.state.host.Fits text) := by
  rw [not_and_or]
  cases h with
  | refused _ hfail =>
    exact hfail.imp_right fun hrefused => .inr (mt (And.right ∘ Host.fits_iff.1) hrefused)
  | half _ _ _ hfail =>
    exact hfail.imp_right fun hno => hno.symm.imp_right fun hlong => mt And.left hlong
  | bare _ _ _ _ hstrings => exact .inr (.inl hstrings)

theorem supplied {p : Nat} (h : Interns text σ (.ok p) τ) (hσ : σ.state.Literate) :
    σ.state.hierarchy.MakesStrings ∧ σ.state.host.Fits text := by
  cases h with
  | known hget => exact hσ text p hget
  | made _ _ _ hfits hstrings => exact ⟨hstrings, hfits⟩

theorem literate (h : Interns text σ r τ) (hσ : σ.state.Literate) : τ.state.Literate := by
  cases h with
  | made _ _ _ hfits hstrings =>
    intro text' p hget
    rw [Table.get?_insert] at hget
    split at hget
    · next heq =>
      rw [heq]
      exact ⟨hstrings, hfits⟩
    · exact hσ text' p hget
  | _ => exact hσ

end Interns

end Exec

theorem Session.ValueChange.literate {σ τ : Session} (h : ValueChange σ τ)
    (hσ : σ.state.Literate) : τ.state.Literate := by
  cases h with
  | intern hrun =>
    obtain ⟨ρ, hinterns, rfl⟩ := Exec.internString_interns hrun
    exact hinterns.literate hσ
  | symbol => exact hσ

namespace Exec

variable {σ τ : Session} {e : Fault}

theorem internString_madeOf (text : String) : MadeOf ValueChange (internString text) :=
  fun _ => .single (.intern rfl)

theorem newSymbolicRef_madeOf (origin staticType : String) :
    MadeOf ValueChange (newSymbolicRef origin staticType) :=
  .bind (fun σ => .single (.symbol σ)) fun _ => .pure _

theorem newSymbol_madeOf (origin : String) (type : FieldType) :
    MadeOf ValueChange (newSymbol origin type) :=
  .bind (fun σ => .single (.symbol σ)) fun _ => .pure _

theorem initialValue_madeOf (c : ClassFile) (symbolic : Bool) (f : Field) (type : FieldType) :
    MadeOf ValueChange (initialValue c symbolic f type) := by
  unfold initialValue
  split
  · refine .bind (.lift _) fun literal => ?_
    cases literal with
    | string text => exact (internString_madeOf text).bind fun _ => .pure _
    | _ => exact .pure _
  split
  · unfold freshValue
    split
    · exact (newSymbolicRef_madeOf _ _).bind fun _ => .pure _
    · exact (newSymbol_madeOf _ _).bind fun _ => .pure _
  · exact .pure _

theorem initialValues_madeOf (c : ClassFile) (symbolic : Bool) (fields : List Field)
    (found : Table Value) : MadeOf ValueChange (initialValues c symbolic found fields) := by
  induction fields generalizing found with
  | nil => exact .pure _
  | cons f rest ih =>
    exact .bind (.lift _) fun type => (initialValue_madeOf c symbolic f type).bind fun _ => ih _

theorem literalValue_error {pool : ConstantPool} {index : PoolIndex}
    (h : (literalValue pool index).apply σ = (.error e, τ)) :
    τ.state.isFull ∨ ∀ literal, pool.literal index = .ok literal →
      ∃ text, literal = .string text ∧
        ¬(σ.state.hierarchy.MakesStrings ∧ σ.state.host.Fits text) := by
  rcases apply_lift_bind_error_iff.1 h with ⟨hliteral, -⟩ | ⟨literal, hliteral, h⟩
  · obtain ⟨d, hd, -⟩ := except_mapError_error_iff.1 hliteral
    exact .inr fun literal hok => by cases hok.symm.trans hd
  have hliteral := except_mapError_ok_iff.1 hliteral
  cases literal with
  | string text =>
    rcases apply_bind_error_iff.1 h with hintern | ⟨p, ρ, -, h⟩
    · obtain ⟨ρ, hinterns, rfl⟩ := internString_interns hintern
      refine hinterns.fault.imp_right fun hno literal hok => ?_
      cases hok.symm.trans hliteral
      exact ⟨text, rfl, hno⟩
    · cases h
  | _ => cases h

theorem literalValue_ok {pool : ConstantPool} {index : PoolIndex} {v : Value}
    (hσ : σ.state.Literate) (h : (literalValue pool index).apply σ = (.ok v, τ)) :
    ∃ literal, pool.literal index = .ok literal ∧ ∀ text, literal = .string text →
      σ.state.hierarchy.MakesStrings ∧ σ.state.host.Fits text := by
  obtain ⟨literal, hliteral, h⟩ := apply_lift_bind_ok_iff.1 h
  refine ⟨literal, except_mapError_ok_iff.1 hliteral, ?_⟩
  rintro text rfl
  obtain ⟨p, ρ, hintern, -⟩ := apply_bind_ok_iff.1 h
  obtain ⟨_, hinterns, -⟩ := internString_interns hintern
  exact hinterns.supplied hσ

theorem freshValue_ne_error {type : FieldType} {origin : String} :
    (freshValue type origin).apply σ ≠ (.error e, τ) := by
  unfold freshValue
  split <;> exact fun h => by cases h

theorem initialValues_error {c : ClassFile} {symbolic : Bool} {found : Table Value}
    {fields : List Field} (h : (initialValues c symbolic found fields).apply σ = (.error e, τ)) :
    τ.state.isFull ∨ ∃ f ∈ fields, ¬σ.state.hierarchy.Supplies σ.state.host c f := by
  induction fields generalizing found σ with
  | nil => cases h
  | cons f rest ih =>
    rcases apply_lift_bind_error_iff.1 h with ⟨htype, -⟩ | ⟨type, htype, h⟩
    · obtain ⟨d, hd, -⟩ := except_mapError_error_iff.1 htype
      refine .inr ⟨f, List.mem_cons_self, ?_⟩
      rintro ⟨⟨type, hok⟩, -⟩
      cases hok.symm.trans hd
    rcases apply_bind_error_iff.1 h with hvalue | ⟨v, ρ, hvalue, h⟩
    · unfold initialValue at hvalue
      split at hvalue
      · next index hindex =>
        refine (literalValue_error hvalue).imp_right fun hnone => ⟨f, List.mem_cons_self, ?_⟩
        rintro ⟨-, hsupplies⟩
        obtain ⟨literal, hliteral, hmade⟩ := hsupplies index hindex
        obtain ⟨text, rfl, hno⟩ := hnone literal hliteral
        exact hno (hmade text rfl)
      · split at hvalue
        · exact absurd hvalue freshValue_ne_error
        · cases hvalue
    · have hmade := (initialValue_makesValues c symbolic f type).allocates hvalue
      refine (ih h).imp_right ?_
      rintro ⟨g, hg, hbad⟩
      rw [hmade.hierarchy, hmade.host] at hbad
      exact ⟨g, List.mem_cons_of_mem f hg, hbad⟩

theorem initialValues_ok {c : ClassFile} {symbolic : Bool} {found values : Table Value}
    {fields : List Field} (hσ : σ.state.Literate)
    (h : (initialValues c symbolic found fields).apply σ = (.ok values, τ)) :
    ∀ f ∈ fields, σ.state.hierarchy.Supplies σ.state.host c f := by
  induction fields generalizing found σ with
  | nil => simp
  | cons f rest ih =>
    obtain ⟨type, htype, h⟩ := apply_lift_bind_ok_iff.1 h
    obtain ⟨v, ρ, hvalue, h⟩ := apply_bind_ok_iff.1 h
    have hmade := (initialValue_makesValues c symbolic f type).allocates hvalue
    have hρ := (initialValue_madeOf c symbolic f type).preserves_of_apply
      (·.state.Literate) (fun _ _ hstep => hstep.literate) hσ hvalue
    have hrest := ih hρ h
    rw [hmade.hierarchy, hmade.host] at hrest
    refine List.forall_mem_cons.2 ⟨⟨⟨type, except_mapError_ok_iff.1 htype⟩, ?_⟩, hrest⟩
    intro index hindex
    rw [initialValue, hindex] at hvalue
    exact literalValue_ok hσ hvalue

end Exec

end SymbolicBytecode

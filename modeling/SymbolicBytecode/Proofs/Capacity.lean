import Mathlib
import SymbolicBytecode.Proofs.Runs

/-!
# The heap limit

Room is checked for before an object is made. For the static entry of a class it is checked before
the literals among its constants are made, and not again after them, so that the entry may be one
too many. Below is by how much a run can exceed the limit, and for which classes and limits it
never does. Exceptions of the machine do not count.
-/
namespace SymbolicBytecode

open Relation (ReflTransGen)
open Session (ValueChange ThreadChange Change)

/-- The text that the constant of a field stands for, if it stands for one. -/
def ClassFile.text? (c : ClassFile) (f : Field) : Option String :=
  match f.constantValue.map c.pool.literal with
  | some (.ok (.string text)) => some text
  | _ => none

def ClassFile.texts (c : ClassFile) (fields : List Field) : Finset String :=
  (fields.filterMap c.text?).toFinset

/-- The texts that there are string objects for. -/
def State.literals (s : State) : Finset String := s.strings.keys.toFinset

variable {σ τ : Session} {c : ClassFile} {f : Field} {text : String} {limit : Nat}

theorem State.mem_literals {s : State} : text ∈ s.literals ↔ s.strings.contains text := by
  rw [literals, List.mem_toFinset, Table.mem_keys_iff]

theorem State.lt_of_not_isFull {s : State} (hlimit : s.heapLimit = some limit)
    (hroom : ¬s.isFull) : s.occupied < limit := by
  by_contra hge
  exact hroom (isFull_iff.2 ⟨limit, hlimit, by omega⟩)

theorem ClassFile.literal_of_text? (htext : c.text? f = some text) :
    ∃ index, f.constantValue = some index ∧ c.pool.literal index = .ok (.string text) := by
  unfold text? at htext
  split at htext
  · next literal hliteral =>
    cases htext
    exact Option.map_eq_some_iff.1 hliteral
  · cases htext

theorem ClassFile.texts_cons_of_none {rest : List Field} (htext : c.text? f = none) :
    c.texts (f :: rest) = c.texts rest := by
  simp [texts, htext]

theorem ClassFile.texts_cons_of_some {rest : List Field} (htext : c.text? f = some text) :
    c.texts (f :: rest) = insert text (c.texts rest) := by
  simp [texts, htext]

theorem Hierarchy.makesStrings_of_texts {h : Hierarchy} {host : Host} {fields : List Field}
    (hsupplies : ∀ f ∈ fields, h.Supplies host c f) (htexts : (c.texts fields).Nonempty) :
    h.MakesStrings := by
  obtain ⟨text, hmem⟩ := htexts
  obtain ⟨f, hf, htext⟩ := List.mem_filterMap.1 (List.mem_toFinset.1 hmem)
  obtain ⟨index, hindex, hliteral⟩ := ClassFile.literal_of_text? htext
  obtain ⟨literal, hok, hmade⟩ := (hsupplies f hf).2 index hindex
  cases hliteral.symm.trans hok
  exact (hmade text rfl).1

namespace Exec

/-- A literal that there was not takes two places. -/
theorem Interns.literals {p : Nat} (h : Interns text σ (.ok p) τ) :
    τ.state.literals = insert text σ.state.literals ∧
      τ.state.heap.size + 2 * σ.state.literals.card =
        σ.state.heap.size + 2 * τ.state.literals.card := by
  cases h with
  | known hget =>
    have hmem : text ∈ σ.state.literals := by
      simp [State.mem_literals, Table.contains, hget]
    exact ⟨(Finset.insert_eq_self.2 hmem).symm, rfl⟩
  | @made fields hnew =>
    have hnotMem : text ∉ σ.state.literals := by
      simp [State.mem_literals, Table.contains, hnew]
    have hliterals : (σ.state.strings.insert text (σ.state.heap.size + 1)).keys.toFinset =
        insert text σ.state.literals := by
      ext other
      simp only [List.mem_toFinset, Table.mem_keys_iff, Finset.mem_insert, State.mem_literals,
        Table.contains, Table.get?_insert]
      split <;> simp [*]
    refine ⟨hliterals, ?_⟩
    simp only [State.literals] at hliterals hnotMem ⊢
    rw [hliterals, Finset.card_insert_of_notMem hnotMem, Heap.size_set, Heap.size_add,
      Heap.size_add]
    omega

theorem internString_literals {p : Nat} (h : (internString text).apply σ = (.ok p, τ)) :
    τ.state.literals = insert text σ.state.literals ∧
      τ.state.heap.size + 2 * σ.state.literals.card =
        σ.state.heap.size + 2 * τ.state.literals.card := by
  obtain ⟨ρ, hinterns, rfl⟩ := internString_interns h
  exact hinterns.literals

theorem Interns.occupied_le {r : Except Fault Nat} (h : Interns text σ r τ)
    (hlimit : σ.state.heapLimit = some limit) :
    τ.state.occupied ≤ max σ.state.occupied limit := by
  cases h with
  | known => exact le_max_left _ _
  | refused => exact le_max_left _ _
  | half _ hroom =>
    have hlt := State.lt_of_not_isFull hlimit hroom
    rw [Session.occupied_adding]
    omega
  | bare _ _ hroom' =>
    have hlt := State.lt_of_not_isFull (s := (σ.adding (charArray text)).state) hlimit hroom'
    rw [Session.occupied_adding]
    omega
  | @made fields _ _ hroom' =>
    have hlt := State.lt_of_not_isFull (s := (σ.adding (charArray text)).state) hlimit hroom'
    rw [Session.occupied_adding] at hlt
    simp only [State.occupied, Heap.size_set, Heap.size_add] at hlt ⊢
    omega

theorem internString_total {text : String} (hstrings : σ.state.hierarchy.MakesStrings)
    (hfits : σ.state.host.Fits text)
    (hroom : ∀ limit, σ.state.heapLimit = some limit → text ∉ σ.state.literals →
      σ.state.occupied + 2 ≤ limit) :
    ∃ p τ, (internString text).apply σ = (.ok p, τ) := by
  rcases hrun : (internString text).apply σ with ⟨e | p, τ⟩
  · have hnotFull (hnew : σ.state.strings.get? text = none) (o : HeapObject) :
        ¬σ.state.isFull ∧ ¬(σ.adding o).state.isFull := by
      have hnotMem : text ∉ σ.state.literals := by
        simp [State.mem_literals, Table.contains, hnew]
      constructor
      · intro hfull
        obtain ⟨limit, hlimit, hle⟩ := State.isFull_iff.1 hfull
        have hroom' := hroom limit hlimit hnotMem
        omega
      · intro hfull
        obtain ⟨limit, hlimit, hle⟩ := State.isFull_iff.1 hfull
        have hroom' := hroom limit hlimit hnotMem
        rw [Session.occupied_adding] at hle
        omega
    obtain ⟨hshort, hgrants⟩ := Host.fits_iff.1 hfits
    obtain ⟨ρ, hinterns, -⟩ := internString_interns hrun
    cases hinterns with
    | refused hnew hfail =>
      rcases hfail with hfull | hno
      · exact absurd hfull (hnotFull hnew (charArray text)).1
      · exact absurd hgrants hno
    | half hnew _ _ hfail =>
      rcases hfail with hfull | hlong | hno
      · exact absurd hfull (hnotFull hnew _).2
      · exact absurd hshort hlong
      · exact absurd hstrings hno
    | bare _ _ _ _ hno => exact absurd hstrings hno
  · exact ⟨p, τ, rfl⟩

theorem initialValue_of_text {symbolic : Bool} {type : FieldType} (htext : c.text? f = some text) :
    initialValue c symbolic f type = (do
      let p ← internString text
      return .reference (.concrete p)) := by
  obtain ⟨index, hindex, hliteral⟩ := ClassFile.literal_of_text? htext
  rw [initialValue, hindex]
  dsimp only
  rw [literalValue, hliteral]
  rfl

/-- A field that is not a text makes no object. -/
theorem initialValue_of_none {h : Hierarchy} {host : Host} (hsupplies : h.Supplies host c f)
    (htext : c.text? f = none) (symbolic : Bool) (type : FieldType) (σ : Session) :
    ∃ v τ, (initialValue c symbolic f type).apply σ = (.ok v, τ) ∧
      τ.state.heap = σ.state.heap ∧ τ.state.strings = σ.state.strings := by
  unfold initialValue
  cases hindex : f.constantValue with
  | none =>
    cases symbolic with
    | false => exact ⟨_, σ, rfl, rfl, rfl⟩
    | true =>
      simp only [if_true]
      unfold freshValue
      split <;> exact ⟨_, _, rfl, rfl, rfl⟩
  | some index =>
    obtain ⟨literal, hliteral, -⟩ := hsupplies.2 index hindex
    dsimp only
    rw [literalValue, hliteral]
    cases literal with
    | string text => simp [ClassFile.text?, hindex, hliteral] at htext
    | _ => exact ⟨_, σ, rfl, rfl, rfl⟩

/-- The values of static fields take two places for each literal that there was not before. -/
theorem initialValues_literals {symbolic : Bool} {found values : Table Value} {fields : List Field}
    (hσ : σ.state.Literate)
    (h : (initialValues c symbolic found fields).apply σ = (.ok values, τ)) :
    τ.state.literals = c.texts fields ∪ σ.state.literals ∧
      τ.state.heap.size + 2 * σ.state.literals.card =
        σ.state.heap.size + 2 * τ.state.literals.card := by
  induction fields generalizing found σ with
  | nil =>
    cases h
    simp [ClassFile.texts]
  | cons f rest ih =>
    have hsupplies := initialValues_ok hσ h f List.mem_cons_self
    obtain ⟨type, htype, h⟩ := apply_lift_bind_ok_iff.1 h
    obtain ⟨v, ρ, hvalue, h⟩ := apply_bind_ok_iff.1 h
    have hρ := (initialValue_madeOf c symbolic f type).preserves_of_apply
      (·.state.Literate) (fun _ _ hstep => hstep.literate) hσ hvalue
    obtain ⟨hliterals, hsize⟩ := ih hρ h
    cases htext : c.text? f with
    | none =>
      obtain ⟨_, _, hplain, hheap, hstrings⟩ :=
        initialValue_of_none hsupplies htext symbolic type σ
      rw [hvalue, Prod.mk.injEq] at hplain
      obtain ⟨-, rfl⟩ := hplain
      have hsame : ρ.state.literals = σ.state.literals := by
        rw [State.literals, hstrings, State.literals]
      rw [hsame] at hliterals hsize
      rw [hheap] at hsize
      exact ⟨by rw [hliterals, ClassFile.texts_cons_of_none htext], hsize⟩
    | some text =>
      rw [initialValue_of_text htext] at hvalue
      obtain ⟨p, π, hintern, hvalue⟩ := apply_bind_ok_iff.1 hvalue
      cases hvalue
      obtain ⟨hinterned, hsize'⟩ := internString_literals hintern
      constructor
      · rw [hliterals, hinterned, ClassFile.texts_cons_of_some htext, Finset.union_insert,
          Finset.insert_union]
      · omega

/-- A well-formed static field gets its value if there is room for the literals, and then there is
room for those of the other fields. -/
theorem initialValue_total {rest : List Field} (symbolic : Bool) (type : FieldType)
    (hsupplies : σ.state.hierarchy.Supplies σ.state.host c f)
    (hroom : ∀ limit, σ.state.heapLimit = some limit →
      σ.state.occupied + 2 * (c.texts (f :: rest) \ σ.state.literals).card ≤ limit) :
    ∃ v ρ, (initialValue c symbolic f type).apply σ = (.ok v, ρ) ∧
      ∀ limit, ρ.state.heapLimit = some limit →
        ρ.state.occupied + 2 * (c.texts rest \ ρ.state.literals).card ≤ limit := by
  cases htext : c.text? f with
  | none =>
    obtain ⟨v, ρ, hplain, hheap, hstrings⟩ := initialValue_of_none hsupplies htext symbolic type σ
    have hmade := (initialValue_makesValues c symbolic f type).allocates hplain
    refine ⟨v, ρ, hplain, ?_⟩
    rw [ClassFile.texts_cons_of_none htext] at hroom
    simpa only [State.occupied, State.literals, hmade.heapLimit, hmade.statics, hheap, hstrings]
      using hroom
  | some text =>
    rw [ClassFile.texts_cons_of_some htext] at hroom
    obtain ⟨index, hindex, hliteral⟩ := ClassFile.literal_of_text? htext
    obtain ⟨hstrings, hfits⟩ : σ.state.hierarchy.MakesStrings ∧ σ.state.host.Fits text := by
      obtain ⟨literal, hok, hmade⟩ := hsupplies.2 index hindex
      cases hliteral.symm.trans hok
      exact hmade text rfl
    have hroomText : ∀ limit, σ.state.heapLimit = some limit → text ∉ σ.state.literals →
        σ.state.occupied + 2 ≤ limit := by
      intro limit hlimit hnotMem
      have hle := hroom limit hlimit
      have hpos : 0 < (insert text (c.texts rest) \ σ.state.literals).card :=
        Finset.card_pos.2 ⟨text, by simp [hnotMem]⟩
      omega
    obtain ⟨p, ρ, hintern⟩ := internString_total hstrings hfits hroomText
    obtain ⟨hinterned, hsize⟩ := internString_literals hintern
    have hmade := (internString_makesValues text).allocates hintern
    refine ⟨.reference (.concrete p), ρ, ?_, ?_⟩
    · rw [initialValue_of_text htext, apply_bind, hintern]
      rfl
    · intro limit hlimit
      have hplaces : (insert text (c.texts rest) \ σ.state.literals).card +
          σ.state.literals.card = (c.texts rest \ ρ.state.literals).card +
            ρ.state.literals.card := by
        rw [hinterned, Finset.card_sdiff_add_card, Finset.card_sdiff_add_card,
          Finset.insert_union, Finset.union_insert]
      have hle := hroom limit (hmade.heapLimit ▸ hlimit)
      simp only [State.occupied, hmade.statics] at hle ⊢
      omega

theorem initialValues_total {symbolic : Bool} {found : Table Value} {fields : List Field}
    (hsupplies : ∀ f ∈ fields, σ.state.hierarchy.Supplies σ.state.host c f)
    (hroom : ∀ limit, σ.state.heapLimit = some limit →
      σ.state.occupied + 2 * (c.texts fields \ σ.state.literals).card ≤ limit) :
    ∃ values τ, (initialValues c symbolic found fields).apply σ = (.ok values, τ) := by
  induction fields generalizing found σ with
  | nil => exact ⟨found, σ, rfl⟩
  | cons f rest ih =>
    obtain ⟨hfirst, hrest⟩ := List.forall_mem_cons.1 hsupplies
    obtain ⟨type, htype⟩ := hfirst.1
    obtain ⟨v, ρ, hvalue, hroom'⟩ := initialValue_total symbolic type hfirst hroom
    have hmade := (initialValue_makesValues c symbolic f type).allocates hvalue
    obtain ⟨values, τ, hvalues⟩ : ∃ values τ,
        (initialValues c symbolic (found.insert f.name v) rest).apply ρ = (.ok values, τ) :=
      ih (by rwa [hmade.hierarchy, hmade.host]) hroom'
    refine ⟨values, τ, ?_⟩
    rw [initialValues, apply_bind, apply_liftM, htype]
    dsimp only [Except.mapError]
    rw [apply_bind, hvalue]
    exact hvalues

theorem Interns.two_mul_literals_le {r : Except Fault Nat} (h : Interns text σ r τ)
    (hσ : 2 * σ.state.literals.card ≤ σ.state.heap.size) :
    2 * τ.state.literals.card ≤ τ.state.heap.size := by
  cases r with
  | ok p =>
    have hsize := h.literals.2
    omega
  | error e =>
    cases h with
    | refused => exact hσ
    | half =>
      refine hσ.trans ?_
      simp only [Session.adding, Heap.size_add]
      omega
    | bare =>
      refine hσ.trans ?_
      simp only [Session.adding, Heap.size_add]
      omega

theorem Interns.events {r : Except Fault Nat} (h : Interns text σ r τ) :
    τ.events = σ.events := by
  cases h <;> rfl

theorem apply_createKlass {name : String} {values : Table Value} {ρ : Session}
    (hnew : ¬σ.state.hasKlass name) (hget : σ.state.hierarchy.get? name = some c)
    (hroom : ¬σ.state.isFull)
    (hvalues : (initialValues c false ∅ c.staticFields).apply σ = (.ok values, ρ)) :
    (createKlass name).apply σ = (.ok (), created name values ρ) := by
  rw [createKlass, apply_state_bind, if_neg hnew, Hierarchy.find_ok_iff.2 hget, apply_bind,
    apply_liftM]
  dsimp only [Except.mapError]
  rw [apply_bind, apply_liftM, State.checkCapacity, if_neg hroom]
  dsimp only
  rw [apply_bind, hvalues]
  rfl

end Exec

def Event.makesThrowable (h : Hierarchy) : Event → Bool
  | .throwing t => (h.instanceFields t.className).isOk
  | _ => false

def Operation.makesThrowable (h : Hierarchy) : Operation → Bool
  | .createThrowable className => (h.instanceFields className).isOk
  | _ => false

theorem Event.makesThrowable_of_quiet {e : Event} (h : Hierarchy)
    (hquiet : ∀ t, e ≠ .throwing t) : e.makesThrowable h = false := by
  cases e with
  | throwing t => exact absurd rfl (hquiet t)
  | _ => rfl

namespace Session

/-- The exceptions that the machine has made. Each of them is reported right before. -/
def raised (σ : Session) : Nat := σ.events.countP (·.makesThrowable σ.state.hierarchy)

/-- The objects that have been made regardless of the limit by the end of a run: the exceptions of
the machine, and those that were made directly. -/
def throwables (σ : Session) : List (Engine × Operation) → Nat
  | [] => σ.raised
  | (engine, op) :: rest =>
    (if op.makesThrowable σ.state.hierarchy then 1 else 0) + (op.after engine σ).throwables rest

/-- What is known about a session with a heap limit, whatever it holds. -/
structure Limited (h : Hierarchy) (limit : Nat) (host : Host) (σ : Session) : Prop where
  hierarchy : σ.state.hierarchy = h
  heapLimit : σ.state.heapLimit = some limit
  host : σ.state.host = host
  literate : σ.state.Literate
  literals : 2 * σ.state.literals.card ≤ σ.state.heap.size

/-- Apart from exceptions, of which some were made directly, the session holds no more objects and
entries than the bound says. -/
structure Within (h : Hierarchy) (limit : Nat) (host : Host) (bound direct : Nat) (σ : Session) :
    Prop extends Limited h limit host σ where
  occupied : σ.state.occupied ≤ bound + direct + σ.raised

/-- No class that can get an entry has both literals and room for them. -/
def EntriesFit (h : Hierarchy) (limit : Nat) (host : Host) : Prop :=
  ∀ name c, h.get? name = some c → (∀ f ∈ c.staticFields, h.Supplies host c f) →
    (c.texts c.staticFields).Nonempty → limit < 2 * (c.texts c.staticFields).card

variable {h : Hierarchy} {host : Host} {bound direct : Nat} {lax : Bool}

theorem Limited.value (hσ : Limited h limit host σ) (hstep : ValueChange σ τ) :
    Limited h limit host τ ∧ τ.state.occupied ≤ max σ.state.occupied limit ∧
      τ.events = σ.events := by
  cases hstep with
  | symbol =>
    exact ⟨⟨hσ.hierarchy, hσ.heapLimit, hσ.host, hσ.literate, hσ.literals⟩, le_max_left _ _, rfl⟩
  | intern hrun =>
    obtain ⟨ρ, hinterns, rfl⟩ := Exec.internString_interns hrun
    have hmade := hinterns.allocates
    refine ⟨⟨?_, ?_, ?_, ?_, ?_⟩, hinterns.occupied_le hσ.heapLimit, hinterns.events⟩
    · exact hmade.hierarchy.trans hσ.hierarchy
    · exact hmade.heapLimit.trans hσ.heapLimit
    · exact hmade.host.trans hσ.host
    · exact hinterns.literate hσ.literate
    · exact hinterns.two_mul_literals_le hσ.literals

theorem Limited.values (hσ : Limited h limit host σ) (hsteps : ReflTransGen ValueChange σ τ) :
    Limited h limit host τ ∧ τ.state.occupied ≤ max σ.state.occupied limit ∧
      τ.events = σ.events := by
  induction hsteps with
  | refl => exact ⟨hσ, le_max_left _ _, rfl⟩
  | tail _ hlast ih =>
    obtain ⟨hρ, hle, hevents⟩ := ih
    obtain ⟨hτ, hle', hevents'⟩ := hρ.value hlast
    exact ⟨hτ, by omega, hevents'.trans hevents⟩

/-- There is a place for the entry when the values of its fields have been made, unless all that
was left went to literals. -/
theorem Limited.entry {symbolic : Bool} {name : String} {values : Table Value}
    (hσ : Limited h limit host σ) (hbound : limit < bound ∨ limit ≤ bound ∧ EntriesFit h limit host)
    (hget : σ.state.hierarchy.get? name = some c) (hroom : ¬σ.state.isFull)
    (hvalues : (Exec.initialValues c symbolic ∅ c.staticFields).apply σ = (.ok values, τ)) :
    Limited h limit host τ ∧ τ.state.occupied + 1 ≤ bound ∧ τ.events = σ.events := by
  have hlt := State.lt_of_not_isFull hσ.heapLimit hroom
  obtain ⟨hτ, hle, hevents⟩ := hσ.values ((Exec.initialValues_madeOf _ _ _ _).of_apply hvalues)
  refine ⟨hτ, ?_, hevents⟩
  rcases hbound with hbound | ⟨hbound, hfit⟩
  · omega
  have hsupplies := Exec.initialValues_ok hσ.literate hvalues
  have hstatics := ((Exec.initialValues_makesValues _ _ _ _).allocates hvalues).statics
  obtain ⟨hliterals, hsize⟩ := Exec.initialValues_literals hσ.literate hvalues
  rw [hσ.hierarchy] at hget
  rw [hσ.hierarchy, hσ.host] at hsupplies
  rcases (c.texts c.staticFields).eq_empty_or_nonempty with hempty | hnonempty
  · -- without literals the heap is as before
    rw [hempty, Finset.empty_union] at hliterals
    rw [hliterals] at hsize
    simp only [State.occupied, hstatics] at hlt ⊢
    omega
  · -- the literals of the class alone would take more than the limit
    have hfit := hfit name c hget hsupplies hnonempty
    have hcard : (c.texts c.staticFields).card ≤ τ.state.literals.card :=
      Finset.card_le_card (hliterals ▸ Finset.subset_union_left)
    have hliterals' := hτ.literals
    simp only [State.occupied] at hle hlt
    omega

theorem Limited.of_le (hσ : Limited h limit host σ)
    (hhierarchy : τ.state.hierarchy = σ.state.hierarchy)
    (hlimit : τ.state.heapLimit = σ.state.heapLimit) (hhost : τ.state.host = σ.state.host)
    (hstrings : τ.state.strings = σ.state.strings)
    (hheap : σ.state.heap.size ≤ τ.state.heap.size) : Limited h limit host τ where
  hierarchy := hhierarchy.trans hσ.hierarchy
  heapLimit := hlimit.trans hσ.heapLimit
  host := hhost.trans hσ.host
  literate text p hget := by
    rw [hstrings] at hget
    rw [hhierarchy, hhost]
    exact hσ.literate text p hget
  literals := by
    rw [State.literals, hstrings]
    exact hσ.literals.trans hheap

theorem Limited.adding (hσ : Limited h limit host σ) (o : HeapObject) :
    Limited h limit host (σ.adding o) :=
  hσ.of_le rfl rfl rfl rfl (by simp only [Session.adding, Heap.size_add]; omega)

theorem Within.of_le (hσ : Within h limit host bound direct σ) (hτ : Limited h limit host τ)
    (hevents : τ.events = σ.events) (hle : τ.state.occupied ≤ σ.state.occupied) :
    Within h limit host bound direct τ := by
  refine ⟨hτ, hle.trans ?_⟩
  rw [raised, hevents, hτ.hierarchy, ← hσ.hierarchy]
  exact hσ.occupied

theorem Within.thread (hσ : Within h limit host bound direct σ) (hchange : ThreadChange σ τ) :
    Within h limit host bound direct τ := by
  have hle := hσ.occupied
  cases hchange with
  | frames => exact hσ.of_le (hσ.toLimited.of_le rfl rfl rfl rfl le_rfl) rfl le_rfl
  | report hquiet =>
    refine ⟨hσ.toLimited.of_le rfl rfl rfl rfl le_rfl, ?_⟩
    simpa [raised, Event.makesThrowable_of_quiet _ hquiet] using hle
  | @raise t o hmakes =>
    obtain ⟨fields, hfields, -⟩ := hmakes
    have hraised : raised { σ.adding o with events := .throwing t :: σ.events } = σ.raised + 1 := by
      simp [raised, Event.makesThrowable, adding, hfields, Except.isOk, Except.toBool]
    refine ⟨(hσ.adding o).of_le rfl rfl rfl rfl le_rfl, (occupied_adding σ o).trans_le ?_⟩
    rw [hraised]
    omega
  | raiseFails hfields =>
    refine ⟨hσ.toLimited.of_le rfl rfl rfl rfl le_rfl, ?_⟩
    simpa [raised, Event.makesThrowable, hfields, Except.isOk, Except.toBool] using hle

theorem Within.allocate (hσ : Within h limit host bound direct σ) (hbound : limit ≤ bound)
    (o : HeapObject) (hroom : ¬σ.state.isFull) : Within h limit host bound direct (σ.adding o) := by
  have hlt := State.lt_of_not_isFull hσ.heapLimit hroom
  refine ⟨hσ.adding o, ?_⟩
  rw [occupied_adding]
  omega

theorem Within.values (hσ : Within h limit host bound direct σ) (hbound : limit ≤ bound)
    (hsteps : ReflTransGen ValueChange σ τ) : Within h limit host bound direct τ := by
  obtain ⟨hτ, hle, hevents⟩ := Limited.values hσ.toLimited hsteps
  have hraised : τ.raised = σ.raised := by
    rw [raised, raised, hevents, hτ.hierarchy, hσ.hierarchy]
  have hoccupied := hσ.occupied
  exact ⟨hτ, by omega⟩

theorem Within.enters {symbolic : Bool} {name : String} {enter : Table Value → Session → Session}
    (hσ : Within h limit host bound direct σ)
    (hbound : limit < bound ∨ limit ≤ bound ∧ EntriesFit h limit host)
    (henter : ∀ values ρ, Limited h limit host ρ → ρ.state.occupied + 1 ≤ bound →
      Within h limit host bound direct (enter values ρ))
    (henters : Exec.Enters symbolic name enter σ τ) : Within h limit host bound direct τ := by
  cases henters with
  | present => exact hσ
  | refused _ hsteps => exact hσ.values (by omega) hsteps
  | entered _ hget hroom hvalues =>
    obtain ⟨hρ, hplace, -⟩ := hσ.toLimited.entry hbound hget hroom hvalues
    exact henter _ _ hρ hplace

theorem Within.createKlass (hσ : Within h limit host bound direct σ)
    (hbound : limit < bound ∨ limit ≤ bound ∧ EntriesFit h limit host) (name : String) :
    Within h limit host bound direct ((Exec.createKlass name).apply σ).2 := by
  refine hσ.enters hbound (fun values ρ hρ hplace => ?_) (Exec.createKlass_enters name σ)
  refine ⟨hρ.of_le rfl rfl rfl rfl le_rfl, ?_⟩
  simp only [State.occupied, Exec.created, Table.size_insert] at hplace ⊢
  split <;> omega

theorem Within.change (hσ : Within h limit host bound direct σ)
    (hbound : limit < bound ∨ limit ≤ bound ∧ EntriesFit h limit host) (hchange : Change lax σ τ) :
    Within h limit host bound direct τ := by
  have hle : limit ≤ bound := by omega
  have hassuming (ρ : Session) (hρ : Within h limit host bound direct ρ) (c : Clause) :
      Within h limit host bound direct (ρ.assuming c) :=
    hρ.of_le (hρ.toLimited.of_le rfl rfl rfl rfl le_rfl) rfl le_rfl
  cases hchange with
  | thread hchange => exact hσ.thread hchange
  | value hchange => exact hσ.values hle (.single hchange)
  | ask => exact hσ.of_le (hσ.toLimited.of_le rfl rfl rfl rfl le_rfl) rfl le_rfl
  | allocate o hroom => exact hσ.allocate hle o hroom
  | @store p o o' hget hclass =>
    have hsize := σ.state.heap.size_set p o'
    refine hσ.of_le (hσ.toLimited.of_le rfl rfl rfl rfl hsize.ge) rfl ?_
    simp only [State.occupied, hsize, le_refl]
  | null => exact hassuming σ hσ _
  | identify => exact hassuming σ hσ _
  | expand _ hroom => exact hassuming _ (hσ.allocate hle _ hroom) _
  | @update name k hhas =>
    have hsize : (σ.state.statics.insert name k).size = σ.state.statics.size :=
      (Table.size_insert _ _ _).trans (if_pos hhas)
    refine hσ.of_le (hσ.toLimited.of_le rfl rfl rfl rfl le_rfl) rfl ?_
    simp only [State.occupied, hsize, le_refl]
  | create name => exact hσ.createKlass hbound name
  | @declare name hnew => exact (hassuming σ hσ (.notInitialized name)).createKlass hbound name
  | presume hget =>
    refine hσ.enters hbound (fun values ρ hρ hplace => ?_)
      (Exec.assumeOneInitialized_enters hget)
    refine ⟨hρ.of_le rfl rfl rfl rfl le_rfl, ?_⟩
    simp only [State.occupied, Exec.presumed, Table.size_insert] at hplace ⊢
    split <;> omega
  | suppose => exact hassuming σ hσ _
  | remove name =>
    have hsize := σ.state.statics.size_erase_le name
    refine hσ.of_le (hσ.toLimited.of_le rfl rfl rfl rfl le_rfl) rfl ?_
    simp only [State.occupied]
    omega

theorem Within.run {ops : List (Engine × Operation)} (hσ : Within h limit host bound direct σ)
    (hbound : limit < bound ∨ limit ≤ bound ∧ EntriesFit h limit host) :
    (σ.run ops).state.occupied ≤ bound + direct + σ.throwables ops := by
  induction ops generalizing σ direct with
  | nil => exact hσ.occupied
  | cons entry rest ih =>
    obtain ⟨engine, op⟩ := entry
    suffices hafter : Within h limit host bound
        (direct + if op.makesThrowable σ.state.hierarchy then 1 else 0) (op.after engine σ) by
      have hrest := ih hafter
      rw [throwables, Session.run]
      omega
    have hsteps : ReflTransGen (Change true) σ (op.after engine σ) ∨ _ :=
      Operation.after_steps (fun _ => rfl) (fun _ => rfl) σ
    rcases hsteps with hsteps | ⟨className, o, rfl, ⟨fields, hfields, -⟩, hadded⟩
    · have hafter :=
        inv_of_steps _ (fun _ _ hchange hρ => Within.change hρ hbound hchange) hsteps hσ
      have hoccupied := hafter.occupied
      exact ⟨hafter.toLimited, by omega⟩
    · have hoccupied := hσ.occupied
      have hraised : (σ.adding o).raised = σ.raised := rfl
      rw [hadded]
      refine ⟨hσ.adding o, ?_⟩
      simp only [Operation.makesThrowable, hfields, Except.isOk, Except.toBool, if_true,
        occupied_adding, hraised]
      omega

theorem throwables_eq_raised {ops : List (Engine × Operation)} (σ : Session)
    (hops : ∀ entry ∈ ops, ∀ h, entry.2.makesThrowable h = false) :
    σ.throwables ops = (σ.run ops).raised := by
  induction ops generalizing σ with
  | nil => rfl
  | cons entry rest ih =>
    obtain ⟨hfirst, hrest⟩ := List.forall_mem_cons.1 hops
    rw [throwables, hfirst, ih _ hrest, Session.run]
    simp

/-- As long as there is room, instances fill the heap one by one. -/
theorem run_createInstance (engine : Engine) {className : String} {fields : Table FieldType}
    (hfields : σ.state.hierarchy.instanceFields className = .ok fields) (n : Nat)
    (hlimit : σ.state.heapLimit = some limit) (hroom : σ.state.occupied + n ≤ limit) :
    ∃ heap, heap.size = σ.state.heap.size + n ∧
      σ.run (List.replicate n (engine, .createInstance className)) =
        { σ with state := { σ.state with heap } } := by
  induction n generalizing σ with
  | zero => exact ⟨σ.state.heap, rfl, rfl⟩
  | succ n ih =>
    have hnotFull : ¬σ.state.isFull := by
      intro hfull
      obtain ⟨limit', hlimit', hle⟩ := State.isFull_iff.1 hfull
      cases hlimit.symm.trans hlimit'
      omega
    have hafter : Operation.after engine σ (.createInstance className) =
        σ.adding (.ofFields className fields) := by
      rw [Operation.after, Exec.apply_createInstance, hfields]
      dsimp only
      rw [Exec.apply_allocateWithinLimit, if_neg hnotFull]
    obtain ⟨heap, hsize, hrun⟩ := ih (σ := σ.adding (.ofFields className fields)) hfields hlimit
      (by rw [occupied_adding]; omega)
    refine ⟨heap, ?_, ?_⟩
    · rw [hsize, adding, Heap.size_add]
      omega
    · rw [List.replicate_succ, Session.run, hafter, hrun]
      rfl

/-- A class gets its entry although its literals have taken up all the room that was left. -/
theorem createKlass_exceeds {name : String} (hσ : Limited h limit host σ)
    (hget : h.get? name = some c)
    (hsupplies : ∀ f ∈ c.staticFields, h.Supplies host c f)
    (htexts : (c.texts c.staticFields).Nonempty) (hnew : ¬σ.state.hasKlass name)
    (hliterals : σ.state.literals = ∅)
    (hroom : σ.state.occupied + 2 * (c.texts c.staticFields).card = limit) :
    ((Exec.createKlass name).apply σ).2.state.occupied = limit + 1 ∧
      ((Exec.createKlass name).apply σ).2.raised = σ.raised := by
  have hpos := htexts.card_pos
  have hnotFull : ¬σ.state.isFull := by
    intro hfull
    obtain ⟨limit', hlimit', hle⟩ := State.isFull_iff.1 hfull
    cases hσ.heapLimit.symm.trans hlimit'
    omega
  obtain ⟨values, ρ, hvalues⟩ : ∃ values ρ,
      (Exec.initialValues c false ∅ c.staticFields).apply σ = (.ok values, ρ) := by
    refine Exec.initialValues_total (hσ.hierarchy ▸ hσ.host ▸ hsupplies) fun limit' hlimit' => ?_
    cases hσ.heapLimit.symm.trans hlimit'
    rw [hliterals, Finset.sdiff_empty]
    omega
  rw [Exec.apply_createKlass hnew (hσ.hierarchy ▸ hget) hnotFull hvalues]
  obtain ⟨hmade, hheap⟩ := Exec.initialValues_literals hσ.literate hvalues
  have hstatics := ((Exec.initialValues_makesValues _ _ _ _).allocates hvalues).statics
  obtain ⟨hρ, -, hevents⟩ := hσ.values ((Exec.initialValues_madeOf _ _ _ _).of_apply hvalues)
  constructor
  · rw [hmade, hliterals, Finset.union_empty, Finset.card_empty] at hheap
    have hsize : (σ.state.statics.insert name ⟨.notInitialized, values⟩).size =
        σ.state.statics.size + 1 := (Table.size_insert _ _ _).trans (if_neg hnew)
    simp only [State.occupied] at hroom
    simp only [State.occupied, Exec.created, hstatics, hsize]
    omega
  · simp [raised, Exec.created, Event.makesThrowable, hevents, hρ.hierarchy, hσ.hierarchy]

theorem run_exceeds (engine : Engine) {name : String} (hget : h.get? name = some c)
    (hsupplies : ∀ f ∈ c.staticFields, h.Supplies host c f)
    (htexts : (c.texts c.staticFields).Nonempty)
    (hlimit : 2 * (c.texts c.staticFields).card ≤ limit) :
    ∃ ops, ((start (.create h (some limit) host)).run ops).state.occupied = limit + 1 ∧
      (start (.create h (some limit) host)).throwables ops = 0 := by
  -- the heap is filled up to what the literals need, then the entry is created
  obtain ⟨fields, hfields, -⟩ : h.MakesStrings := Hierarchy.makesStrings_of_texts hsupplies htexts
  have hempty : (start (.create h (some limit) host)).state.occupied = 0 := rfl
  obtain ⟨heap, hsize, hfill⟩ := run_createInstance (σ := start (.create h (some limit) host))
    engine hfields (limit - 2 * (c.texts c.staticFields).card) rfl (by omega)
  have hsize : heap.size = limit - 2 * (c.texts c.staticFields).card :=
    hsize.trans (Nat.zero_add _)
  let filled : State := { State.create h (some limit) host with heap }
  have hfilled : Limited h limit host (start filled) := ⟨rfl, rfl, rfl, nofun, Nat.zero_le _⟩
  have hroom : (start filled).state.occupied + 2 * (c.texts c.staticFields).card = limit := by
    have hsame : (start filled).state.occupied = heap.size := rfl
    omega
  obtain ⟨hoccupied, hraised⟩ := createKlass_exceeds hfilled hget hsupplies htexts nofun rfl hroom
  let ops : List (Engine × Operation) :=
    List.replicate (limit - 2 * (c.texts c.staticFields).card)
      (engine, .createInstance stringClass) ++ [(engine, .createKlass name)]
  have hrun : (start (.create h (some limit) host)).run ops =
      ((Exec.createKlass name).apply (start filled)).2 := by
    rw [run_append, hfill]
    rfl
  refine ⟨ops, by rw [hrun, hoccupied], ?_⟩
  rw [throwables_eq_raised, hrun, hraised]
  · rfl
  · simp [ops, or_imp, forall_and, Operation.makesThrowable]

/-- **How far the heap limit holds.** On every run the objects and entries, apart from exceptions
of the machine, exceed the limit by at most one. No run exceeds it at all just if every class that
can get an entry has no literals among its constants, or so many that they alone exceed it. A class
with a text that there is no array for never gets one. -/
theorem run_occupied_le (h : Hierarchy) (limit : Nat) (host : Host) :
    (∀ ops, ((start (.create h (some limit) host)).run ops).state.occupied ≤
      limit + 1 + (start (.create h (some limit) host)).throwables ops) ∧
    ((∀ ops, ((start (.create h (some limit) host)).run ops).state.occupied ≤
        limit + (start (.create h (some limit) host)).throwables ops) ↔
      ∀ name c, h.get? name = some c → (∀ f ∈ c.staticFields, h.Supplies host c f) →
        (c.texts c.staticFields).Nonempty → limit < 2 * (c.texts c.staticFields).card) := by
  have hstart (bound : Nat) : Within h limit host bound 0 (start (.create h (some limit) host)) :=
    ⟨⟨rfl, rfl, rfl, nofun, Nat.zero_le _⟩, Nat.zero_le _⟩
  refine ⟨fun ops => (hstart (limit + 1)).run (.inl (Nat.lt_succ_self _)), ?_, ?_⟩
  · intro hbound name c hget hsupplies htexts
    by_contra hge
    obtain ⟨ops, hoccupied, hthrowables⟩ := run_exceeds
      ⟨none, .ample, .standard, .fixed false, .standard⟩ hget hsupplies htexts (Nat.not_lt.1 hge)
    have hle := hbound ops
    omega
  · intro hfit ops
    exact (hstart limit).run (.inr ⟨le_rfl, hfit⟩)

/-- A class with a text as its only constant. -/
def banner : ClassFile :=
  ({ ClassOutline.publicClass "Banner" with
    constants := [.string "welcome"]
    fields := [⟨0x0018, "TEXT", "Ljava/lang/String;", some 2⟩] } : ClassOutline).build

/-- The text takes the two places that there are, and the entry of the class a third. -/
theorem run_createKlass_banner :
    ((start (.create (Hierarchy.bootstrap.add banner) (some 2) .ample)).run
      [(⟨none, .ample, .standard, .fixed false, .standard⟩,
        .createKlass "Banner")]).state.occupied = 3 ∧
    (start (.create (Hierarchy.bootstrap.add banner) (some 2) .ample)).throwables
      [(⟨none, .ample, .standard, .fixed false, .standard⟩, .createKlass "Banner")] = 0 := by
  decide +kernel

end Session

end SymbolicBytecode

import Mathlib
import SymbolicBytecode.Proofs.Sequencing
import SymbolicBytecode.State.Basic

/-!
# References to objects in the heap

A concrete reference names a position of the heap, and so does a path condition that says what a
symbolic reference refers to. In a state without dangling references there is an object there.
-/
namespace SymbolicBytecode

def Reference.Live (heap : Heap) : Reference → Prop
  | .concrete position => position < heap.size
  | .symbolic _ => True

def Value.Live (heap : Heap) : Value → Prop
  | .reference ref => ref.Live heap
  | _ => True

def HeapObject.values : HeapObject → List Value
  | .object _ fields => fields.values
  | .array _ elements => elements.toList

/-- The object refers to no other: it has been made, and nothing has been stored in it. -/
def HeapObject.IsPlain (o : HeapObject) : Prop := ∀ ref, .reference ref ∉ o.values

/-- The values in a frame are live. -/
structure Frame.Live (heap : Heap) (f : Frame) : Prop where
  locals : ∀ v, some v ∈ f.locals → v.Live heap
  operands : ∀ v ∈ f.operands, v.Live heap

/-- All concrete references, and all positions that symbolic references are known to refer to, are
positions of objects in the heap. -/
structure State.NoDangling (s : State) : Prop where
  locals : ∀ f ∈ s.stack, ∀ v, some v ∈ f.locals → v.Live s.heap
  operands : ∀ f ∈ s.stack, ∀ v ∈ f.operands, v.Live s.heap
  objects : ∀ position o, s.heap.get? position = some o → ∀ v ∈ o.values, v.Live s.heap
  statics : ∀ name k, s.statics.get? name = some k → ∀ v ∈ k.fields.values, v.Live s.heap
  strings : ∀ position ∈ s.strings.values, position < s.heap.size
  uncaught : ∀ ref, s.uncaught = some ref → ref.Live s.heap
  resolutions : ∀ c ∈ s.path.clauses, ∀ id position,
    c.resolves? = some (id, .position position) → position < s.heap.size

theorem Table.mem_values_insert {α : Type} {t : Table α} {name : String} {v w : α}
    (h : v ∈ (t.insert name w).values) : v ∈ t.values ∨ v = w := by
  obtain ⟨entry, hentry, rfl⟩ := List.mem_map.1 h
  rcases mem_insertEntry hentry with rfl | hold
  · exact .inr rfl
  · exact .inl (List.mem_map_of_mem hold)

theorem FieldType.defaultValue_ne_reference (type : FieldType) (ref : Reference) :
    type.defaultValue ≠ .reference ref := by
  cases type <;> simp [defaultValue]

namespace HeapObject

theorem ofFields_isPlain (className : String) (fields : Table FieldType) :
    (ofFields className fields).IsPlain := by
  intro ref hmem
  simp only [ofFields, values, Table.values, Table.map, List.map_map, List.mem_map] at hmem
  obtain ⟨entry, -, hvalue⟩ := hmem
  exact entry.2.defaultValue_ne_reference ref hvalue

theorem array_isPlain (component : FieldType) (n : Nat) :
    (array component (Array.replicate n component.defaultValue)).IsPlain := by
  intro ref hmem
  rw [values, Array.toList_replicate] at hmem
  exact component.defaultValue_ne_reference ref (List.eq_of_mem_replicate hmem).symm

theorem mem_values_of_setField {o o' : HeapObject} {field : String} {v w : Value}
    (h : o.setField field v = .ok o') (hw : w ∈ o'.values) : w ∈ o.values ∨ w = v := by
  cases o with
  | object className fields =>
    rw [setField] at h
    split at h
    · cases h
      exact Table.mem_values_insert hw
    · cases h
  | array component elements => cases h

theorem mem_values_of_setElement {o o' : HeapObject} {index : Int32} {v w : Value}
    (h : o.setElement index v = .ok o') (hw : w ∈ o'.values) : w ∈ o.values ∨ w = v := by
  cases o with
  | object className fields => cases h
  | array component elements =>
    obtain ⟨i, -, h⟩ := except_bind_ok_iff.1 h
    cases h
    have hmem := Array.mem_or_eq_of_mem_setIfInBounds (Array.mem_toList_iff.1 hw)
    exact hmem.imp_left Array.mem_toList_iff.2

end HeapObject

namespace Heap

variable {heap : Heap} {position : Nat}

theorem exists_get?_iff : (∃ o, heap.get? position = some o) ↔ position < heap.size := by
  simp [get?, size, Array.getElem?_eq_some_iff]

theorem get?_eq_none_iff : heap.get? position = none ↔ heap.size ≤ position :=
  Array.getElem?_eq_none_iff

theorem get?_set (o : HeapObject) (hlt : position < heap.size) (other : Nat) :
    (heap.set position o).get? other = if other = position then some o else heap.get? other := by
  have hlt : position < heap.objects.size := hlt
  rw [get?, set, Array.getElem?_setIfInBounds, if_pos hlt]
  simp only [eq_comm, get?]

end Heap

section Values

variable {heap heap' : Heap} {v : Value}

theorem Reference.Live.mono {ref : Reference} (hlive : ref.Live heap)
    (hle : heap.size ≤ heap'.size) : ref.Live heap' := by
  cases ref with
  | concrete position => exact Nat.lt_of_lt_of_le hlive hle
  | symbolic => trivial

theorem Value.live_of_ne_reference (hv : ∀ ref, v ≠ .reference ref) : v.Live heap := by
  cases v with
  | reference ref => exact absurd rfl (hv ref)
  | _ => trivial

theorem Value.Live.mono (hlive : v.Live heap) (hle : heap.size ≤ heap'.size) : v.Live heap' := by
  cases v with
  | reference ref => exact Reference.Live.mono hlive hle
  | _ => trivial

theorem HeapObject.IsPlain.live {o : HeapObject} (hplain : o.IsPlain) :
    ∀ v ∈ o.values, v.Live heap :=
  fun _ hv => Value.live_of_ne_reference fun ref href => hplain ref (href ▸ hv)

end Values

namespace PathCondition

theorem exists_clause_of_resolution? {p : PathCondition} {id : Nat} {r : Resolution}
    (hr : p.resolution? id = some r) : ∃ c ∈ p.clauses, c.resolves? = some (id, r) := by
  obtain ⟨c, hc, hfound⟩ := List.exists_of_findSome?_eq_some hr
  refine ⟨c, List.mem_reverse.1 hc, ?_⟩
  split at hfound
  · next other r' hresolves =>
    split at hfound
    · next heq =>
      cases hfound
      rw [hresolves, heq]
    · cases hfound
  · cases hfound

end PathCondition

namespace State.NoDangling

variable {s : State}

theorem create (h : Hierarchy) (limit : Option Nat) (host : Host) :
    (State.create h limit host).NoDangling where
  locals := by simp [State.create]
  operands := by simp [State.create]
  objects := by simp [State.create, Heap.get?, Heap.empty]
  statics := by simp [State.create]
  strings := by simp [State.create, Table.values, EmptyCollection.emptyCollection, Table.empty]
  uncaught := by simp [State.create]
  resolutions := by simp [State.create, PathCondition.empty]

theorem frames (hs : s.NoDangling) : ∀ f ∈ s.stack, f.Live s.heap :=
  fun f hf => ⟨hs.locals f hf, hs.operands f hf⟩

theorem withThread (hs : s.NoDangling) {stack : List Frame} {uncaught : Option Reference}
    (hstack : ∀ f ∈ stack, f.Live s.heap)
    (huncaught : ∀ ref, uncaught = some ref → ref.Live s.heap) :
    State.NoDangling { s with stack, uncaught } :=
  { hs with
    locals := fun f hf => (hstack f hf).locals
    operands := fun f hf => (hstack f hf).operands
    uncaught := huncaught }

theorem withStack (hs : s.NoDangling) {stack : List Frame} (hstack : ∀ f ∈ stack, f.Live s.heap) :
    State.NoDangling { s with stack } :=
  hs.withThread hstack hs.uncaught

theorem withHeap (hs : s.NoDangling) {heap : Heap} (hle : s.heap.size ≤ heap.size)
    (hobjects : ∀ position o, heap.get? position = some o → ∀ v ∈ o.values, v.Live heap) :
    State.NoDangling { s with heap } where
  locals f hf v hv := (hs.locals f hf v hv).mono hle
  operands f hf v hv := (hs.operands f hf v hv).mono hle
  objects := hobjects
  statics name k hget v hv := (hs.statics name k hget v hv).mono hle
  strings position hposition := (hs.strings position hposition).trans_le hle
  uncaught ref href := (hs.uncaught ref href).mono hle
  resolutions c hc id position hresolves := (hs.resolutions c hc id position hresolves).trans_le hle

theorem adding (hs : s.NoDangling) {o : HeapObject} (hplain : o.IsPlain) :
    State.NoDangling { s with heap := s.heap.add o } := by
  have hle : s.heap.size ≤ (s.heap.add o).size := by
    rw [Heap.size_add]
    omega
  refine hs.withHeap hle fun position o' hget v hv => ?_
  rw [Heap.get?_add] at hget
  split at hget
  · cases hget
    exact hplain.live v hv
  · exact (hs.objects position o' hget v hv).mono hle

theorem lt_of_resolve? (hs : s.NoDangling) {ref : Reference} {position : Nat}
    (hlive : ref.Live s.heap) (hresolve : s.resolve? ref = some (.position position)) :
    position < s.heap.size := by
  cases ref with
  | concrete q =>
    cases hresolve
    exact hlive
  | symbolic ref =>
    obtain ⟨c, hc, hresolves⟩ := PathCondition.exists_clause_of_resolution? hresolve
    exact hs.resolutions c hc _ _ hresolves

theorem classOf_ok (hs : s.NoDangling) {ref : Reference} {position : Nat}
    (hlive : ref.Live s.heap) (hresolve : s.resolve? ref = some (.position position)) :
    ∃ className, s.classOf ref = .ok className := by
  have hlt := hs.lt_of_resolve? hlive hresolve
  have hobject : s.heap.get? position = some s.heap.objects[position] :=
    Array.getElem?_eq_getElem hlt
  refine ⟨s.heap.objects[position].className, ?_⟩
  simp [classOf, object, objectPosition, hresolve, Heap.find, hobject, bind, Except.bind, pure,
    Except.pure]

end State.NoDangling

end SymbolicBytecode

/-!
# Tables keyed by name

A finite map from names to values, held as a list in strictly increasing name order.
The order is part of the type, so two tables with the same bindings are the same table
(`Table.ext_get?`) and listings come out sorted.
-/

namespace SymbolicBytecode

structure Table (α : Type) where
  entries : List (String × α)
  sorted : entries.Pairwise (fun a b => a.1 < b.1)

namespace Table

variable {α : Type}

def empty : Table α := ⟨[], List.Pairwise.nil⟩

instance : EmptyCollection (Table α) := ⟨empty⟩

instance : Inhabited (Table α) := ⟨empty⟩

instance [DecidableEq α] : DecidableEq (Table α) := fun s t =>
  if h : s.entries = t.entries then
    .isTrue (by cases s; cases t; cases h; rfl)
  else
    .isFalse (fun e => h (congrArg entries e))

def get? (t : Table α) (name : String) : Option α := t.entries.lookup name

def contains (t : Table α) (name : String) : Bool := (t.get? name).isSome

def keys (t : Table α) : List String := t.entries.map Prod.fst

def values (t : Table α) : List α := t.entries.map Prod.snd

def size (t : Table α) : Nat := t.entries.length

/-- Put a binding at its place in the order, over an earlier binding of the same name. -/
def insertEntry (name : String) (value : α) : List (String × α) → List (String × α)
  | [] => [(name, value)]
  | (k, v) :: rest =>
    if name < k then (name, value) :: (k, v) :: rest
    else if name = k then (name, value) :: rest
    else (k, v) :: insertEntry name value rest

theorem mem_insertEntry {name : String} {value : α} {p : String × α} {l : List (String × α)}
    (h : p ∈ insertEntry name value l) : p = (name, value) ∨ p ∈ l := by
  induction l with
  | nil => simpa [insertEntry] using h
  | cons head rest ih =>
    obtain ⟨k, v⟩ := head
    rw [insertEntry] at h
    split at h
    · simpa using h
    · split at h
      · rcases List.mem_cons.1 h with h | h
        · exact .inl h
        · exact .inr (List.mem_cons_of_mem _ h)
      · rcases List.mem_cons.1 h with h | h
        · exact .inr (h ▸ List.mem_cons_self)
        · exact (ih h).imp id (List.mem_cons_of_mem _)

theorem insertEntry_sorted (name : String) (value : α) {l : List (String × α)}
    (h : l.Pairwise (fun a b => a.1 < b.1)) :
    (insertEntry name value l).Pairwise (fun a b => a.1 < b.1) := by
  induction l with
  | nil => simp [insertEntry]
  | cons head rest ih =>
    obtain ⟨k, v⟩ := head
    obtain ⟨hk, hrest⟩ := List.pairwise_cons.1 h
    rw [insertEntry]
    split
    · next hlt =>
      refine List.pairwise_cons.2 ⟨fun p hp => ?_, h⟩
      rcases List.mem_cons.1 hp with rfl | hp
      · exact hlt
      · exact String.lt_trans hlt (hk p hp)
    · next hlt =>
      split
      · next heq =>
        subst heq
        exact List.pairwise_cons.2 ⟨hk, hrest⟩
      · next hne =>
        refine List.pairwise_cons.2 ⟨fun p hp => ?_, ih hrest⟩
        rcases mem_insertEntry hp with rfl | hp
        · exact String.not_le.1 fun hle => hne (String.le_antisymm hle (String.not_lt.1 hlt))
        · exact hk p hp

def insert (t : Table α) (name : String) (value : α) : Table α :=
  ⟨insertEntry name value t.entries, insertEntry_sorted name value t.sorted⟩

/-- Drop the binding of a name, if there is one. -/
def erase (t : Table α) (name : String) : Table α :=
  ⟨t.entries.filter (fun p => p.1 != name), t.sorted.filter _⟩

/-- The same names with other values. -/
def map {β : Type} (f : α → β) (t : Table α) : Table β :=
  ⟨t.entries.map fun p => (p.1, f p.2), List.pairwise_map.2 t.sorted⟩

/-- Later bindings of a name win over earlier ones. -/
def ofList (bindings : List (String × α)) : Table α :=
  bindings.foldl (fun t p => t.insert p.1 p.2) ∅

@[simp] theorem get?_empty (name : String) : (∅ : Table α).get? name = none := rfl

theorem lookup_insertEntry (name other : String) (value : α) (l : List (String × α)) :
    (insertEntry name value l).lookup other =
      if other = name then some value else l.lookup other := by
  induction l with
  | nil => simp only [insertEntry, List.lookup_cons, List.lookup_nil]; grind
  | cons head rest ih =>
    obtain ⟨k, v⟩ := head
    rw [insertEntry]
    split
    · simp only [List.lookup_cons]; grind
    · split
      · simp only [List.lookup_cons]; grind
      · simp only [List.lookup_cons, ih]; grind

@[simp] theorem get?_insert (t : Table α) (name other : String) (value : α) :
    (t.insert name value).get? other = if other = name then some value else t.get? other :=
  lookup_insertEntry name other value t.entries

@[simp] theorem get?_erase (t : Table α) (name other : String) :
    (t.erase name).get? other = if other = name then none else t.get? other := by
  obtain ⟨l, hl⟩ := t
  simp only [get?, erase]
  clear hl
  induction l with
  | nil => simp
  | cons head rest ih =>
    obtain ⟨k, v⟩ := head
    by_cases hk : k = name
    · simp only [hk, List.filter_cons, bne_self_eq_false, Bool.false_eq_true, if_false, ih,
        List.lookup_cons]
      grind
    · simp only [List.filter_cons, bne_iff_ne, ne_eq, hk, not_false_eq_true, if_true,
        List.lookup_cons, ih]
      grind

@[simp] theorem get?_map {β : Type} (f : α → β) (t : Table α) (name : String) :
    (t.map f).get? name = (t.get? name).map f := by
  obtain ⟨l, hl⟩ := t
  simp only [get?, map]
  clear hl
  induction l with
  | nil => rfl
  | cons head rest ih =>
    obtain ⟨k, v⟩ := head
    simp only [List.map_cons, List.lookup_cons, ih]
    split <;> rfl

theorem length_insertEntry (name : String) (value : α) {l : List (String × α)}
    (h : l.Pairwise (fun a b => a.1 < b.1)) :
    (insertEntry name value l).length =
      if (l.lookup name).isSome then l.length else l.length + 1 := by
  induction l with
  | nil => simp [insertEntry]
  | cons head rest ih =>
    obtain ⟨k, v⟩ := head
    obtain ⟨hk, hrest⟩ := List.pairwise_cons.1 h
    rw [insertEntry]
    split
    · next hlt =>
      have hnone : ((k, v) :: rest).lookup name = none := by
        rw [List.lookup_eq_none_iff]
        intro p hp
        have hlt' : name < p.1 := by
          rcases List.mem_cons.1 hp with rfl | hp
          · exact hlt
          · exact String.lt_trans hlt (hk p hp)
        exact bne_iff_ne.2 fun heq => String.lt_irrefl _ (heq ▸ hlt')
      simp [hnone]
    · split
      · next heq => simp [heq]
      · next hne =>
        have hlookup : ((k, v) :: rest).lookup name = rest.lookup name := by
          simp [List.lookup_cons, beq_eq_false_iff_ne.2 hne]
        rw [List.length_cons, ih hrest, hlookup]
        split <;> rfl

theorem size_insert (t : Table α) (name : String) (value : α) :
    (t.insert name value).size = if t.contains name then t.size else t.size + 1 :=
  length_insertEntry name value t.sorted

theorem size_erase_le (t : Table α) (name : String) : (t.erase name).size ≤ t.size :=
  List.length_filter_le _ _

theorem mem_entries_iff (t : Table α) (name : String) (value : α) :
    (name, value) ∈ t.entries ↔ t.get? name = some value := by
  obtain ⟨l, hl⟩ := t
  simp only [get?]
  induction l with
  | nil => simp
  | cons head rest ih =>
    obtain ⟨k, v⟩ := head
    obtain ⟨hk, hrest⟩ := List.pairwise_cons.1 hl
    have ih := ih hrest
    by_cases hn : name = k
    · subst hn
      have habsent : ∀ w, (name, w) ∉ rest := fun w hw => String.lt_irrefl name (hk (name, w) hw)
      simp [habsent, eq_comm]
    · have hne : (name == k) = false := beq_eq_false_iff_ne.2 hn
      simp [List.lookup_cons, hn, hne, ih]

theorem mem_keys_iff (t : Table α) (name : String) : name ∈ t.keys ↔ t.contains name := by
  simp only [keys, contains, List.mem_map, Option.isSome_iff_exists]
  constructor
  · rintro ⟨⟨k, v⟩, hp, rfl⟩
    exact ⟨v, (mem_entries_iff t _ _).1 hp⟩
  · rintro ⟨v, hv⟩
    exact ⟨(name, v), (mem_entries_iff t _ _).2 hv, rfl⟩

/-- Two strictly increasing lists with the same members are equal. -/
theorem eq_of_mem_iff {l r : List (String × α)} (hl : l.Pairwise (fun a b => a.1 < b.1))
    (hr : r.Pairwise (fun a b => a.1 < b.1)) (h : ∀ p, p ∈ l ↔ p ∈ r) : l = r := by
  induction l generalizing r with
  | nil => exact (List.eq_nil_iff_forall_not_mem.2 fun p hp => by simpa using (h p).2 hp).symm
  | cons a l ih =>
    cases r with
    | nil => exact absurd ((h a).1 List.mem_cons_self) (by simp)
    | cons b r =>
      obtain ⟨ha, hltail⟩ := List.pairwise_cons.1 hl
      obtain ⟨hb, hrtail⟩ := List.pairwise_cons.1 hr
      have hab : a = b := by
        rcases List.mem_cons.1 ((h a).1 List.mem_cons_self) with e | har
        · exact e
        · rcases List.mem_cons.1 ((h b).2 List.mem_cons_self) with e | hbl
          · exact e.symm
          · exact absurd (hb a har) (String.lt_asymm (ha b hbl))
      subst hab
      refine congrArg (a :: ·) (ih hltail hrtail fun p => ?_)
      constructor
      · intro hp
        rcases List.mem_cons.1 ((h p).1 (List.mem_cons_of_mem _ hp)) with e | hp'
        · exact absurd (e ▸ ha p hp) (String.lt_irrefl _)
        · exact hp'
      · intro hp
        rcases List.mem_cons.1 ((h p).2 (List.mem_cons_of_mem _ hp)) with e | hp'
        · exact absurd (e ▸ hb p hp) (String.lt_irrefl _)
        · exact hp'

/-- A table is determined by its bindings. -/
theorem ext_get? {s t : Table α} (h : ∀ name, s.get? name = t.get? name) : s = t := by
  have hentries : s.entries = t.entries := eq_of_mem_iff s.sorted t.sorted fun p => by
    rw [show p = (p.1, p.2) from rfl, mem_entries_iff, mem_entries_iff, h]
  cases s; cases t; cases hentries; rfl

end Table

end SymbolicBytecode

import Mathlib
import SymbolicBytecode.Proofs.Allocation
import SymbolicBytecode.State.Statics

/-!
# The growth of the static store

While classes are being prepared a state grows: static entries are added and assumptions are made,
and what is there stays. `State.Grows` says by which entries and which assumptions, in order.
-/
namespace SymbolicBytecode

namespace State

theorem hasKlass_iff {s : State} {name : String} :
    s.hasKlass name ↔ ∃ k, s.statics.get? name = some k := by
  rw [hasKlass, Table.contains, Option.isSome_iff_exists]

theorem not_hasKlass_iff {s : State} {name : String} :
    ¬s.hasKlass name ↔ s.statics.get? name = none := by
  rw [hasKlass, Table.contains, Option.not_isSome_iff_eq_none]

/-- The second state comes from the first by adding static entries of the given classes and statuses
and by making the given assumptions, besides objects, literals and symbols. -/
structure Grows (s : State) (entries : List (String × KlassStatus)) (clauses : List Clause)
    (t : State) : Prop where
  hierarchy : t.hierarchy = s.hierarchy
  stack : t.stack = s.stack
  uncaught : t.uncaught = s.uncaught
  path : t.path.clauses = s.path.clauses ++ clauses
  kept : ∀ name k, s.statics.get? name = some k → t.statics.get? name = some k
  added : ∀ entry ∈ entries, ∃ k, t.statics.get? entry.1 = some k ∧ k.status = entry.2
  noOther : ∀ name, t.hasKlass name → s.hasKlass name ∨ name ∈ entries.map Prod.fst

namespace Grows

variable {s t u : State} {entries entries' : List (String × KlassStatus)}
  {clauses clauses' : List Clause}

theorem refl (s : State) : Grows s [] [] s where
  hierarchy := rfl
  stack := rfl
  uncaught := rfl
  path := (List.append_nil _).symm
  kept _ _ hget := hget
  added := by simp
  noOther _ hhas := .inl hhas

theorem trans (h : Grows s entries clauses t) (h' : Grows t entries' clauses' u) :
    Grows s (entries ++ entries') (clauses ++ clauses') u where
  hierarchy := h'.hierarchy.trans h.hierarchy
  stack := h'.stack.trans h.stack
  uncaught := h'.uncaught.trans h.uncaught
  path := by rw [h'.path, h.path, List.append_assoc]
  kept name k hget := h'.kept name k (h.kept name k hget)
  added entry hentry := by
    rcases List.mem_append.1 hentry with hentry | hentry
    · obtain ⟨k, hget, hstatus⟩ := h.added entry hentry
      exact ⟨k, h'.kept _ k hget, hstatus⟩
    · exact h'.added entry hentry
  noOther name hhas := by
    rw [List.map_append, List.mem_append, ← or_assoc]
    exact (h'.noOther name hhas).imp_left (h.noOther name)

theorem hasKlass_iff (h : Grows s entries clauses t) (name : String) :
    t.hasKlass name ↔ s.hasKlass name ∨ name ∈ entries.map Prod.fst := by
  refine ⟨h.noOther name, ?_⟩
  rintro (hhas | hmem)
  · obtain ⟨k, hget⟩ := State.hasKlass_iff.1 hhas
    exact State.hasKlass_iff.2 ⟨k, h.kept name k hget⟩
  · obtain ⟨entry, hentry, rfl⟩ := List.mem_map.1 hmem
    obtain ⟨k, hget, -⟩ := h.added entry hentry
    exact State.hasKlass_iff.2 ⟨k, hget⟩

theorem get?_of_notMem (h : Grows s entries clauses t) {name : String}
    (hname : name ∉ entries.map Prod.fst) : t.statics.get? name = s.statics.get? name := by
  cases hget : s.statics.get? name with
  | some k => exact h.kept name k hget
  | none =>
    have habsent : ¬s.hasKlass name := State.not_hasKlass_iff.2 hget
    exact State.not_hasKlass_iff.1 fun hhas => (h.noOther name hhas).elim habsent hname

theorem insertKlass (s : State) {name : String} (k : Klass) (hnew : ¬s.hasKlass name) :
    Grows s [(name, k.status)] [] { s with statics := s.statics.insert name k } where
  hierarchy := rfl
  stack := rfl
  uncaught := rfl
  path := (List.append_nil _).symm
  kept other l hget := by
    have hne : other ≠ name := by
      rintro rfl
      exact hnew (State.hasKlass_iff.2 ⟨l, hget⟩)
    rw [Table.get?_insert, if_neg hne, hget]
  added entry hentry := by
    rw [List.mem_singleton.1 hentry, Table.get?_insert, if_pos rfl]
    exact ⟨k, rfl, rfl⟩
  noOther other hhas := by
    rw [hasKlass, Table.contains, Table.get?_insert] at hhas
    split at hhas
    · next heq => exact .inr (by simp [heq])
    · exact .inl hhas

theorem assume (s : State) (c : Clause) : Grows s [] [c] { s with path := s.path.push c } where
  hierarchy := rfl
  stack := rfl
  uncaught := rfl
  path := rfl
  kept _ _ hget := hget
  added := by simp
  noOther _ hhas := .inl hhas

end Grows

/-- The state grows, by whatever entries and assumptions. -/
def GrowsTo (s t : State) : Prop := ∃ entries clauses, Grows s entries clauses t

namespace GrowsTo

variable {s t u : State}

theorem refl (s : State) : GrowsTo s s := ⟨_, _, .refl s⟩

theorem trans (h : GrowsTo s t) (h' : GrowsTo t u) : GrowsTo s u := by
  obtain ⟨_, _, h⟩ := h
  obtain ⟨_, _, h'⟩ := h'
  exact ⟨_, _, h.trans h'⟩

theorem hierarchy (h : GrowsTo s t) : t.hierarchy = s.hierarchy := by
  obtain ⟨_, _, h⟩ := h
  exact h.hierarchy

theorem stack (h : GrowsTo s t) : t.stack = s.stack := by
  obtain ⟨_, _, h⟩ := h
  exact h.stack

theorem uncaught (h : GrowsTo s t) : t.uncaught = s.uncaught := by
  obtain ⟨_, _, h⟩ := h
  exact h.uncaught

end GrowsTo

theorem Grows.growsTo {s t : State} {entries : List (String × KlassStatus)} {clauses : List Clause}
    (h : Grows s entries clauses t) : GrowsTo s t := ⟨entries, clauses, h⟩

def absent (s : State) (names : List String) : List String := names.filter (!s.hasKlass ·)

/-- The state grows by static entries of initialized classes, and by the assumptions that they were
initialized before. -/
def GrowsInitialized (s : State) (names : List String) (t : State) : Prop :=
  Grows s (names.map (·, .initialized)) (names.map .initialized) t

theorem GrowsInitialized.hasKlass_iff {s t : State} {names : List String}
    (h : GrowsInitialized s names t) (name : String) :
    t.hasKlass name ↔ s.hasKlass name ∨ name ∈ names := by
  rw [Grows.hasKlass_iff h, List.map_map]
  simp

theorem GrowsInitialized.trans {s t u : State} {names names' : List String}
    (h : GrowsInitialized s names t) (h' : GrowsInitialized t names' u) :
    GrowsInitialized s (names ++ names') u := by
  unfold GrowsInitialized
  rw [List.map_append, List.map_append]
  exact Grows.trans h h'

end State

/-- The classes from the root of the chain of a class down to some point. -/
def Hierarchy.UpperPart (h : Hierarchy) (name : String) (files : List ClassFile) : Prop :=
  files = [] ∨ ∃ chain, h.superclassChain name = .ok chain ∧ files <+: chain.reverse

open Session (Allocates)
open State (Grows GrowsTo GrowsInitialized)

theorem Session.Allocates.grows {σ τ : Session} (h : Allocates σ τ) :
    Grows σ.state [] [] τ.state where
  hierarchy := h.hierarchy
  stack := h.stack
  uncaught := h.uncaught
  path := by rw [h.path, List.append_nil]
  kept _ _ hget := by rw [h.statics, hget]
  added := by simp
  noOther _ hhas := .inl (by rwa [State.hasKlass, h.statics] at hhas)

namespace Exec

variable {σ τ : Session} {e : Fault}

theorem apply_insertKlass (className : String) (k : Klass) (σ : Session) :
    (insertKlass className k).apply σ =
      (.ok (), { σ with
        state := { σ.state with statics := σ.state.statics.insert className k } }) :=
  rfl

theorem apply_assume (c : Clause) (σ : Session) :
    (assume c).apply σ =
      (.ok (), { σ with state := { σ.state with path := σ.state.path.push c } }) :=
  rfl

theorem createKlass_ok {className : String} (hnew : ¬σ.state.hasKlass className)
    (h : (createKlass className).apply σ = (.ok (), τ)) :
    τ.queries = σ.queries ∧ (∃ c, σ.state.hierarchy.get? className = some c) ∧
      Grows σ.state [(className, .notInitialized)] [] τ.state := by
  rw [createKlass, apply_state_bind, if_neg hnew] at h
  obtain ⟨c, hfind, h⟩ := apply_lift_bind_ok_iff.1 h
  obtain ⟨_, -, h⟩ := apply_lift_bind_ok_iff.1 h
  obtain ⟨fields, ρ, hfields, h⟩ := apply_bind_ok_iff.1 h
  rw [apply_note_bind, apply_insertKlass] at h
  obtain ⟨-, rfl⟩ := Prod.mk.inj h
  have hmade := (initialValues_makesValues _ _ _ _).allocates hfields
  have hnew' : ¬ρ.state.hasKlass className := by rwa [State.hasKlass, hmade.statics]
  refine ⟨hmade.queries, ⟨c, Hierarchy.find_ok_iff.1 (except_mapError_ok_iff.1 hfind)⟩, ?_⟩
  exact hmade.grows.trans (.insertKlass ρ.state ⟨.notInitialized, fields⟩ hnew')

theorem createKlass_error {className : String}
    (h : (createKlass className).apply σ = (.error e, τ)) :
    Allocates σ τ ∧ ValueFault σ.state.hierarchy.HasShortTexts σ e := by
  rw [createKlass, apply_state_bind] at h
  split at h
  · cases h
  rcases apply_lift_bind_error_iff.1 h with ⟨hfind, rfl⟩ | ⟨c, hfind, h⟩
  · obtain ⟨d, hd, rfl⟩ := except_mapError_error_iff.1 hfind
    obtain ⟨-, rfl⟩ := Hierarchy.find_error_iff.1 hd
    exact ⟨.refl _, fun _ => .notFound _⟩
  rcases apply_lift_bind_error_iff.1 h with ⟨hroom, rfl⟩ | ⟨_, -, h⟩
  · rw [checkCapacity_error hroom]
    exact ⟨.refl _, fun _ => .exhausted⟩
  rcases apply_bind_error_iff.1 h with hfields | ⟨fields, ρ, -, h⟩
  · have hmakes := initialValues_makesValues c false c.staticFields ∅
    have hget := Hierarchy.find_ok_iff.1 (except_mapError_ok_iff.1 hfind)
    exact ⟨hmakes.allocates hfields, (hmakes.fault hfields).mono fun hshort => hshort _ c hget⟩
  · cases h

theorem assumeOneInitialized_ok {c : ClassFile}
    (h : (assumeOneInitialized c).apply σ = (.ok (), τ)) :
    τ.queries = σ.queries ∧ GrowsInitialized σ.state (σ.state.absent [c.name]) τ.state := by
  rw [assumeOneInitialized, apply_state_bind] at h
  split at h
  · next hhas =>
    cases h
    refine ⟨rfl, ?_⟩
    rw [State.absent, List.filter_cons_of_neg (by simpa using hhas)]
    exact Grows.refl _
  next hnew =>
  obtain ⟨_, -, h⟩ := apply_lift_bind_ok_iff.1 h
  obtain ⟨fields, ρ, hfields, h⟩ := apply_bind_ok_iff.1 h
  rw [apply_bind, apply_assume] at h
  dsimp only at h
  rw [apply_insertKlass] at h
  obtain ⟨-, rfl⟩ := Prod.mk.inj h
  have hmade := (initialValues_makesValues _ _ _ _).allocates hfields
  have hnew' : ¬ρ.state.hasKlass c.name := by rwa [State.hasKlass, hmade.statics]
  refine ⟨hmade.queries, ?_⟩
  rw [State.absent, List.filter_cons_of_pos (by simpa using hnew)]
  exact (hmade.grows.trans (.assume ρ.state _)).trans (.insertKlass _ ⟨.initialized, fields⟩ hnew')

theorem assumeOneInitialized_error {c : ClassFile}
    (h : (assumeOneInitialized c).apply σ = (.error e, τ)) :
    Allocates σ τ ∧ ValueFault c.pool.HasShortTexts σ e := by
  rw [assumeOneInitialized, apply_state_bind] at h
  split at h
  · cases h
  rcases apply_lift_bind_error_iff.1 h with ⟨hroom, rfl⟩ | ⟨_, -, h⟩
  · rw [checkCapacity_error hroom]
    exact ⟨.refl _, fun _ => .exhausted⟩
  rcases apply_bind_error_iff.1 h with hfields | ⟨fields, ρ, -, h⟩
  · have hmakes := initialValues_makesValues c true c.staticFields ∅
    exact ⟨hmakes.allocates hfields, hmakes.fault hfields⟩
  · cases h

/-- However it ends, the classes up to some point have their entries. -/
theorem assumeAllInitialized_grows {files : List ClassFile} {r : Except Fault Unit}
    (hnodup : (files.map ClassFile.name).Nodup)
    (h : (assumeAllInitialized files).apply σ = (r, τ)) :
    ∃ done, done <+: files ∧ (r = .ok () → done = files) ∧ τ.queries = σ.queries ∧
      GrowsInitialized σ.state (σ.state.absent (done.map ClassFile.name)) τ.state := by
  induction files generalizing σ with
  | nil =>
    cases h
    exact ⟨[], ⟨_, rfl⟩, fun _ => rfl, rfl, Grows.refl _⟩
  | cons c rest ih =>
    obtain ⟨hnotMem, hrest⟩ := List.nodup_cons.1 hnodup
    rw [assumeAllInitialized, apply_bind] at h
    rcases hhead : (assumeOneInitialized c).apply σ with ⟨e | _, ρ⟩
    · rw [hhead] at h
      cases h
      have hmade := (assumeOneInitialized_error hhead).1
      exact ⟨[], ⟨_, rfl⟩, nofun, hmade.queries, hmade.grows⟩
    rw [hhead] at h
    obtain ⟨hqueries, hgrows⟩ := assumeOneInitialized_ok hhead
    obtain ⟨done, hstart, hdone, hqueries', hgrows'⟩ := ih hrest h
    -- the entry of the first class does not get in the way of the later ones
    have habsent : ρ.state.absent (done.map ClassFile.name) =
        σ.state.absent (done.map ClassFile.name) := by
      refine List.filter_congr fun name hname => ?_
      have hne : name ∉ σ.state.absent [c.name] := fun hmem =>
        hnotMem (List.mem_singleton.1 (List.mem_of_mem_filter hmem) ▸
          (hstart.map ClassFile.name).subset hname)
      have hiff := hgrows.hasKlass_iff name
      rw [or_iff_left hne, Bool.coe_iff_coe] at hiff
      rw [hiff]
    refine ⟨c :: done, List.cons_prefix_cons.2 ⟨rfl, hstart⟩, fun hr => by rw [hdone hr],
      hqueries'.trans hqueries, ?_⟩
    rw [habsent] at hgrows'
    have hboth := hgrows.trans hgrows'
    rwa [State.absent, State.absent, ← List.filter_append] at hboth

theorem assumeAllInitialized_error {files : List ClassFile}
    (h : (assumeAllInitialized files).apply σ = (.error e, τ)) :
    ValueFault (∀ c ∈ files, c.pool.HasShortTexts) σ e := by
  induction files generalizing σ with
  | nil => cases h
  | cons c rest ih =>
    rcases apply_bind_error_iff.1 h with hhead | ⟨_, ρ, hhead, htail⟩
    · exact (assumeOneInitialized_error hhead).2.mono fun hshort => hshort c List.mem_cons_self
    · obtain ⟨-, hgrows⟩ := assumeOneInitialized_ok hhead
      intro hb
      refine (ih htail ?_).mono fun hshort d hd => hshort d (List.mem_cons_of_mem c hd)
      rwa [Grows.hierarchy hgrows]

/-- However it ends, the superclasses from the root down to some point have their entries. -/
theorem assumeClassInitialized_grows {className : String} {r : Except Fault Unit}
    (h : (assumeClassInitialized className).apply σ = (r, τ)) :
    ∃ files, σ.state.hierarchy.UpperPart className files ∧
      (r = .ok () → ∃ chain, σ.state.hierarchy.superclassChain className = .ok chain ∧
        files = chain.reverse) ∧
      τ.queries = σ.queries ∧
      GrowsInitialized σ.state (σ.state.absent (files.map ClassFile.name)) τ.state := by
  rw [assumeClassInitialized, apply_state_bind, apply_bind, apply_liftM] at h
  cases hchain : σ.state.hierarchy.superclassChain className with
  | error e =>
    rw [hchain] at h
    cases h
    exact ⟨[], .inl rfl, nofun, rfl, Grows.refl _⟩
  | ok chain =>
    rw [hchain] at h
    have hnodup : (chain.reverse.map ClassFile.name).Nodup := by
      rw [List.map_reverse, List.nodup_reverse]
      exact (Hierarchy.superclassChain_ok_iff.1 hchain).nodup_names
    obtain ⟨done, hstart, hdone, hgrown⟩ := assumeAllInitialized_grows hnodup h
    exact ⟨done, .inr ⟨chain, hchain, hstart⟩, fun hr => ⟨chain, rfl, hdone hr⟩, hgrown⟩

theorem assumeClassInitialized_ok {className : String}
    (h : (assumeClassInitialized className).apply σ = (.ok (), τ)) :
    ∃ files, σ.state.hierarchy.superclassChain className = .ok files ∧ τ.queries = σ.queries ∧
      GrowsInitialized σ.state (σ.state.absent (files.reverse.map ClassFile.name)) τ.state := by
  obtain ⟨_, -, hchain, hgrown⟩ := assumeClassInitialized_grows h
  obtain ⟨files, hfiles, rfl⟩ := hchain rfl
  exact ⟨files, hfiles, hgrown⟩

theorem assumeClassInitialized_error {className : String}
    (h : (assumeClassInitialized className).apply σ = (.error e, τ)) :
    ValueFault σ.state.hierarchy.HasShortTexts σ e := by
  rw [assumeClassInitialized, apply_state_bind] at h
  rcases apply_lift_bind_error_iff.1 h with ⟨hchain, rfl⟩ | ⟨files, hchain, h⟩
  · obtain ⟨d, hd, rfl⟩ := except_mapError_error_iff.1 hchain
    intro _
    rcases Hierarchy.superclassChain_error hd with ⟨n, rfl⟩ | ⟨n, rfl⟩
    · exact .notFound n
    · exact .illFormed n
  · have hascent := Hierarchy.superclassChain_ok_iff.1 (except_mapError_ok_iff.1 hchain)
    refine (assumeAllInitialized_error h).mono fun hshort c hc => ?_
    exact hshort _ c (hascent.get?_of_mem (List.mem_reverse.1 hc))

end Exec

end SymbolicBytecode

import Mathlib
import SymbolicBytecode.Proofs.Initialization
import SymbolicBytecode.Proofs.Runs

/-!
# Assumptions about initialization

As long as entries of classes are not taken back, the assumptions about the initialization of
classes never contradict each other. A class that is assumed to have been initialized before has an
entry, and one that is assumed not to have been has an entry too or will never get one: the heap
only fills up, and a class that is malformed stays so.
-/
namespace SymbolicBytecode

open Relation (ReflTransGen)
open Session (ValueChange ThreadChange Change)

variable {s t u : State} {added added' : List Clause} {name : String} {σ τ : Session}

namespace State

/-- The second state goes on from the first: entries stay, room is never gained, and the given
assumptions are made. -/
structure Extends (s : State) (added : List Clause) (t : State) : Prop where
  hierarchy : t.hierarchy = s.hierarchy
  path : t.path.clauses = s.path.clauses ++ added
  heapLimit : t.heapLimit = s.heapLimit
  host : t.host = s.host
  occupied : s.occupied ≤ t.occupied
  hasKlass : ∀ name, s.hasKlass name → t.hasKlass name
  literate : s.Literate → t.Literate

theorem Extends.refl (s : State) : Extends s [] s :=
  ⟨rfl, (List.append_nil _).symm, rfl, rfl, le_rfl, fun _ h => h, id⟩

theorem Extends.trans (h : Extends s added t) (h' : Extends t added' u) :
    Extends s (added ++ added') u where
  hierarchy := h'.hierarchy.trans h.hierarchy
  path := by rw [h'.path, h.path, List.append_assoc]
  heapLimit := h'.heapLimit.trans h.heapLimit
  host := h'.host.trans h.host
  occupied := h.occupied.trans h'.occupied
  hasKlass name hhas := h'.hasKlass name (h.hasKlass name hhas)
  literate hs := h'.literate (h.literate hs)

theorem Extends.hopeless (h : Extends s added t) (hs : s.Hopeless name) : t.Hopeless name := by
  unfold Hopeless
  rw [h.hierarchy, h.host]
  refine hs.imp_left fun hfull => ?_
  obtain ⟨limit, hlimit, hle⟩ := isFull_iff.1 hfull
  exact isFull_iff.2 ⟨limit, h.heapLimit.trans hlimit, hle.trans h.occupied⟩

theorem Extends.assume (s : State) (c : Clause) :
    Extends s [c] { s with path := s.path.push c } :=
  ⟨rfl, rfl, rfl, rfl, le_rfl, fun _ h => h, id⟩

theorem Extends.insertKlass (s : State) (name : String) (k : Klass) :
    Extends s [] { s with statics := s.statics.insert name k } where
  hierarchy := rfl
  path := (List.append_nil _).symm
  heapLimit := rfl
  host := rfl
  occupied := by
    simp only [State.occupied, Table.size_insert]
    split <;> omega
  hasKlass other hhas := by
    simp only [State.hasKlass, Table.contains, Table.get?_insert] at hhas ⊢
    split
    · rfl
    · exact hhas
  literate := id

/-- The assumptions about the initialization of classes agree with the entries that there are and
can be, and thus with each other. -/
structure Consistent (s : State) : Prop where
  literate : s.Literate
  initialized : ∀ name, .initialized name ∈ s.path.clauses → s.hasKlass name
  notInitialized : ∀ name, .notInitialized name ∈ s.path.clauses →
    s.hasKlass name ∨ s.Hopeless name
  exclusive : ∀ name, .initialized name ∈ s.path.clauses → .notInitialized name ∉ s.path.clauses

theorem create_consistent (h : Hierarchy) (limit : Option Nat) (host : Host) :
    (create h limit host).Consistent :=
  ⟨nofun, nofun, nofun, nofun⟩

theorem Consistent.extend (hs : s.Consistent) (h : Extends s added t)
    (hinitialized : ∀ name, .initialized name ∈ added →
      t.hasKlass name ∧ .notInitialized name ∉ s.path.clauses ++ added)
    (hnotInitialized : ∀ name, .notInitialized name ∈ added →
      (t.hasKlass name ∨ t.Hopeless name) ∧ .initialized name ∉ s.path.clauses) :
    t.Consistent where
  literate := h.literate hs.literate
  initialized name hmem := by
    rw [h.path, List.mem_append] at hmem
    rcases hmem with hmem | hmem
    · exact h.hasKlass name (hs.initialized name hmem)
    · exact (hinitialized name hmem).1
  notInitialized name hmem := by
    rw [h.path, List.mem_append] at hmem
    rcases hmem with hmem | hmem
    · exact (hs.notInitialized name hmem).imp (h.hasKlass name) h.hopeless
    · exact (hnotInitialized name hmem).1
  exclusive name hmem := by
    rw [h.path] at hmem ⊢
    rcases List.mem_append.1 hmem with hold | hnew
    · intro hnot
      rcases List.mem_append.1 hnot with hnot | hnot
      · exact hs.exclusive name hold hnot
      · exact (hnotInitialized name hnot).2 hold
    · exact (hinitialized name hnew).2

theorem Consistent.keep (hs : s.Consistent) (h : Extends s [] t) : t.Consistent :=
  hs.extend h nofun nofun

end State

open State (Extends)

theorem Session.adding_extends (σ : Session) (o : HeapObject) :
    Extends σ.state [] (σ.adding o).state where
  hierarchy := rfl
  path := (List.append_nil _).symm
  heapLimit := rfl
  host := rfl
  occupied := by
    rw [occupied_adding]
    omega
  hasKlass _ hhas := hhas
  literate := id

theorem Session.ThreadChange.extends (h : ThreadChange σ τ) : Extends σ.state [] τ.state := by
  cases h with
  | frames => exact ⟨rfl, (List.append_nil _).symm, rfl, rfl, le_rfl, fun _ hhas => hhas, id⟩
  | report => exact .refl _
  | raise => exact σ.adding_extends _
  | raiseFails => exact .refl _

theorem Session.ValueChange.extends (h : ValueChange σ τ) : Extends σ.state [] τ.state := by
  cases h with
  | symbol => exact ⟨rfl, (List.append_nil _).symm, rfl, rfl, le_rfl, fun _ hhas => hhas, id⟩
  | intern hrun =>
    obtain ⟨ρ, hinterns, rfl⟩ := Exec.internString_interns hrun
    have hliterate := hinterns.literate
    cases hinterns with
    | known => exact .refl _
    | refused => exact .refl _
    | half => exact σ.adding_extends _
    | bare => exact (σ.adding_extends _).trans (adding_extends _ _)
    | made =>
      refine ⟨rfl, (List.append_nil _).symm, rfl, rfl, ?_, fun _ hhas => hhas, hliterate⟩
      simp only [State.occupied, Heap.size_set, Heap.size_add]
      omega

theorem Session.extends_of_steps (h : ReflTransGen ValueChange σ τ) :
    Extends σ.state [] τ.state := by
  induction h with
  | refl => exact .refl _
  | tail _ hlast ih => exact ih.trans hlast.extends

namespace Exec

/-- After an attempt to create its entry a class has one, or will never get one. -/
theorem createKlass_extends (name : String) (σ : Session) :
    Extends σ.state [] ((createKlass name).apply σ).2.state ∧
      (((createKlass name).apply σ).2.state.hasKlass name ∨
        ((createKlass name).apply σ).2.state.Hopeless name) := by
  generalize hτ : ((createKlass name).apply σ).2 = τ
  have henters := createKlass_enters name σ
  rw [hτ] at henters
  cases henters with
  | present hhas => exact ⟨.refl _, .inl hhas⟩
  | refused hnew hsteps hhopeless => exact ⟨Session.extends_of_steps hsteps, .inr hhopeless⟩
  | @entered c values ρ hnew hget hroom hvalues =>
    have hsteps := (initialValues_madeOf _ _ _ _).of_apply hvalues
    refine ⟨(Session.extends_of_steps hsteps).trans (.insertKlass ρ.state name _), .inl ?_⟩
    simp [created, State.hasKlass, Table.contains]

/-- A class that is now assumed to have been initialized before could have got its entry. -/
theorem assumeOneInitialized_extends {c : ClassFile} (hσ : σ.state.Literate)
    (hget : σ.state.hierarchy.get? c.name = some c) :
    Extends σ.state [] ((assumeOneInitialized c).apply σ).2.state ∨
      Extends σ.state [.initialized c.name] ((assumeOneInitialized c).apply σ).2.state ∧
        ((assumeOneInitialized c).apply σ).2.state.hasKlass c.name ∧
        ¬σ.state.hasKlass c.name ∧ ¬σ.state.Hopeless c.name := by
  generalize hτ : ((assumeOneInitialized c).apply σ).2 = τ
  have henters := assumeOneInitialized_enters hget
  rw [hτ] at henters
  cases henters with
  | present => exact .inl (.refl _)
  | refused hnew hsteps hhopeless => exact .inl (Session.extends_of_steps hsteps)
  | @entered d values ρ hnew hd hroom hvalues =>
    rw [hget, Option.some.injEq] at hd
    subst hd
    have hsteps := (initialValues_madeOf _ _ _ _).of_apply hvalues
    have hassume := (Session.extends_of_steps hsteps).trans (.assume ρ.state (.initialized c.name))
    refine .inr ⟨hassume.trans (.insertKlass _ c.name _), ?_, hnew, ?_⟩
    · simp [presumed, State.hasKlass, Table.contains]
    · rintro (hfull | hnone | ⟨d, hd, f, hf, hbad⟩)
      · exact hroom hfull
      · rw [hget] at hnone
        cases hnone
      · rw [hget, Option.some.injEq] at hd
        subst hd
        exact hbad (initialValues_ok hσ hvalues f hf)

end Exec

theorem State.Consistent.change (hσ : σ.state.Consistent) (h : Change false σ τ) :
    τ.state.Consistent := by
  cases h with
  | thread h => exact hσ.keep h.extends
  | value h => exact hσ.keep h.extends
  | ask => exact hσ
  | allocate o hroom => exact hσ.keep (σ.adding_extends o)
  | store hget hclass =>
    refine hσ.keep ⟨rfl, (List.append_nil _).symm, rfl, rfl, ?_, fun _ hhas => hhas, id⟩
    simp only [State.occupied, Heap.size_set]
    exact le_rfl
  | null hopen => exact hσ.extend (.assume _ _) (by simp) (by simp)
  | identify hopen hlive => exact hσ.extend (.assume _ _) (by simp) (by simp)
  | @expand id o hopen hroom =>
    exact hσ.extend ((σ.adding_extends o).trans (.assume _ _)) (by simp) (by simp)
  | update k hhas => exact hσ.keep (.insertKlass _ _ _)
  | create name => exact hσ.keep (Exec.createKlass_extends name σ).1
  | @declare name hnew =>
    obtain ⟨hextends, hentry⟩ :=
      Exec.createKlass_extends name (σ.assuming (.notInitialized name))
    refine hσ.extend ((Extends.assume σ.state _).trans hextends) (by simp) ?_
    intro other hmem
    obtain rfl : other = name := by simpa using hmem
    exact ⟨hentry, fun hold => hnew (hσ.initialized other hold)⟩
  | @presume c hget =>
    rcases Exec.assumeOneInitialized_extends hσ.literate hget with
      hextends | ⟨hextends, hhas, hnew, hpossible⟩
    · exact hσ.keep hextends
    refine hσ.extend hextends ?_ (by simp)
    intro other hmem
    obtain rfl : other = c.name := by simpa using hmem
    refine ⟨hhas, fun hnot => ?_⟩
    rcases List.mem_append.1 hnot with hnot | hnot
    · exact (hσ.notInitialized _ hnot).elim hnew hpossible
    · simp at hnot
  | suppose name hlax => cases hlax
  | remove name hlax => cases hlax

namespace Session

/-- **Assumptions about initialization never contradict each other.** On a run that never takes
entries back, no class is ever assumed both to have been initialized before and not to have been,
whatever the oracles answer and however operations fail. -/
theorem run_assumptions_exclusive (h : Hierarchy) (limit : Option Nat) (host : Host)
    {ops : List (Engine × Operation)}
    (hops : ∀ entry ∈ ops, entry.1.policy.removeKlasses = false ∧ entry.2.isLax = false)
    (name : String) :
    ¬(.initialized name ∈ ((start (.create h limit host)).run ops).state.path.clauses ∧
      .notInitialized name ∈ ((start (.create h limit host)).run ops).state.path.clauses) := by
  have hstrict : ∀ entry ∈ ops,
      (entry.1.policy.removeKlasses → false) ∧ (entry.2.isLax → false) := by
    intro entry hentry
    obtain ⟨hpolicy, hop⟩ := hops entry hentry
    simp [hpolicy, hop]
  have hconsistent : ((start (.create h limit host)).run ops).state.Consistent :=
    run_preserves (·.state.Consistent) (fun σ τ hchange hσ => hσ.change hchange)
      (fun σ o hσ => hσ.keep (σ.adding_extends o)) hstrict (State.create_consistent h limit host)
  rintro ⟨hinitialized, hnotInitialized⟩
  exact hconsistent.exclusive name hinitialized hnotInitialized

/-- An engine that asks the given oracle and never takes entries back. -/
def keepingEngine (oracle : Oracle) : Engine := ⟨none, .ample, .standard, oracle, .standard⟩

def ladderOperations : List (Engine × Operation) :=
  [(keepingEngine (.scripted false (Table.ofList [("Root", true)]) []), .ensureKlass "Base"),
    (keepingEngine (.fixed false), .ensureKlass "Leaf"),
    (keepingEngine (.fixed true), .ensureKlass "Middle")]

/-- There is room for three entries. A class that does not get one is assumed not to be initialized,
and it is not assumed to be when the oracle changes its mind. -/
theorem ladderOperations_assumptions :
    (∀ entry ∈ ladderOperations,
      entry.1.policy.removeKlasses = false ∧ entry.2.isLax = false) ∧
    ((start (.create (Exec.ladder .empty) (some 3) .ample)).run
        ladderOperations).state.path.clauses =
      [.notInitialized "Base", .initialized "Root", .notInitialized "Leaf",
        .notInitialized "Middle"] ∧
    ∀ name,
      ¬(.initialized name ∈ ((start (.create (Exec.ladder .empty) (some 3) .ample)).run
          ladderOperations).state.path.clauses ∧
        .notInitialized name ∈ ((start (.create (Exec.ladder .empty) (some 3) .ample)).run
          ladderOperations).state.path.clauses) := by
  have hops : ∀ entry ∈ ladderOperations,
      entry.1.policy.removeKlasses = false ∧ entry.2.isLax = false := by
    simp [ladderOperations, keepingEngine, InitializationPolicy.standard, Operation.isLax]
  refine ⟨hops, ?_, run_assumptions_exclusive (Exec.ladder .empty) (some 3) .ample hops⟩
  decide +kernel

end Session

end SymbolicBytecode

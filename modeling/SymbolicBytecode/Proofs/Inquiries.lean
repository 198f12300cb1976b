import Mathlib
import SymbolicBytecode.Proofs.Climbing
import SymbolicBytecode.Proofs.Locality

/-!
# The questions of an initialization

When a class is initialized, the oracle is asked about the class and then about its superclasses,
one after the other, as long as it denies that they were initialized before. The way up ends at a
class that has an entry, and forced enum classes are passed over. `Inquiry` says so in terms of the
state before.
-/
namespace SymbolicBytecode

open State (Grows)

variable {policy : InitializationPolicy} {oracle : Oracle} {s : State}

namespace Hierarchy

variable {h : Hierarchy}

theorem isChain_walkUp (seen : List String) (name : String) :
    (h.walkUp seen name).IsChain h.LeadsTo := by
  fun_induction walkUp h seen name with
  | case1 => exact .nil
  | case2 => exact .singleton _
  | case3 => exact .singleton _
  | case4 => exact .singleton _
  | case5 seen name _ c hget hclass superName hsuper ih =>
    by_cases hseen : superName ∈ name :: seen
    · rw [walkUp_of_mem hseen]
      exact .singleton _
    · obtain ⟨rest, hrest⟩ := walkUp_of_notMem (h := h) hseen
      rw [hrest] at ih ⊢
      exact .cons_cons ⟨c, hget, hclass, hsuper⟩ ih

theorem nodup_walkUp (seen : List String) (name : String) :
    (h.walkUp seen name).Nodup ∧ ∀ n ∈ h.walkUp seen name, n ∉ seen := by
  fun_induction walkUp h seen name with
  | case1 => simp
  | case2 => simpa
  | case3 => simpa
  | case4 => simpa
  | case5 seen name hseen c hget hclass superName hsuper ih =>
    obtain ⟨hnodup, hfresh⟩ := ih
    refine ⟨List.nodup_cons.2 ⟨fun hmem => hfresh name hmem List.mem_cons_self, hnodup⟩, ?_⟩
    exact List.forall_mem_cons.2
      ⟨hseen, fun n hn hmem => hfresh n hn (List.mem_cons_of_mem _ hmem)⟩

end Hierarchy

/-- The class is not assumed to have been initialized before, whatever the oracle would say. -/
def InitializationPolicy.forces (policy : InitializationPolicy) (h : Hierarchy) (name : String) :
    Bool :=
  policy.forceEnums && h.isSubclass name enumClass

/-- The same policy, except that classes keep their entries when an initialization fails. -/
def InitializationPolicy.keeping (policy : InitializationPolicy) : InitializationPolicy :=
  { policy with removeKlasses := false }

/-- The same answers to the given number of questions, and none to the questions after these. -/
def Oracle.upTo (oracle : Oracle) (n : Nat) : Oracle where
  answer earlier q :=
    if earlier.length < n then oracle.answer earlier q
    else .error ⟨"no answer for " ++ q.className⟩

theorem Oracle.upTo_length_answer (earlier : List Query) (q : Query) :
    ∃ e, (oracle.upTo earlier.length).answer earlier q = .error e :=
  ⟨_, if_neg (Nat.lt_irrefl _)⟩

/-- The questions about some classes, in order, when others are being initialized already, and the
last of them if it has not been answered. -/
inductive Inquiry (policy : InitializationPolicy) (oracle : Oracle) (s : State) :
    (earlier : List Query) → (before names : List String) → (asked : List Query) →
    (pending : Option (Query × DecisionError)) → Prop
  | silent {earlier : List Query} {before names : List String} :
      Inquiry policy oracle s earlier before names [] none
  | forced {earlier asked : List Query} {before rest : List String} {name : String}
      {pending : Option (Query × DecisionError)} (hnew : ¬s.HasKlassWith before name)
      (hforces : policy.forces s.hierarchy name)
      (later : Inquiry policy oracle s earlier (before ++ [name]) rest asked pending) :
      Inquiry policy oracle s earlier before (name :: rest) asked pending
  | undecided {earlier : List Query} {before rest : List String} {name : String}
      {e : DecisionError} (hnew : ¬s.HasKlassWith before name)
      (hfree : ¬policy.forces s.hierarchy name)
      (hanswer : oracle.answer earlier ⟨name, s.pathWith before⟩ = .error e) :
      Inquiry policy oracle s earlier before (name :: rest) [⟨name, s.pathWith before⟩]
        (some (⟨name, s.pathWith before⟩, e))
  | affirmed {earlier : List Query} {before rest : List String} {name : String}
      (hnew : ¬s.HasKlassWith before name) (hfree : ¬policy.forces s.hierarchy name)
      (hanswer : oracle.answer earlier ⟨name, s.pathWith before⟩ = .ok true) :
      Inquiry policy oracle s earlier before (name :: rest) [⟨name, s.pathWith before⟩] none
  | denied {earlier asked : List Query} {before rest : List String} {name : String}
      {pending : Option (Query × DecisionError)} (hnew : ¬s.HasKlassWith before name)
      (hfree : ¬policy.forces s.hierarchy name)
      (hanswer : oracle.answer earlier ⟨name, s.pathWith before⟩ = .ok false)
      (later : Inquiry policy oracle s (⟨name, s.pathWith before⟩ :: earlier) (before ++ [name])
        rest asked pending) :
      Inquiry policy oracle s earlier before (name :: rest) (⟨name, s.pathWith before⟩ :: asked)
        pending

namespace Inquiry

variable {earlier asked : List Query} {before names : List String}
  {pending : Option (Query × DecisionError)}

theorem sublist (h : Inquiry policy oracle s earlier before names asked pending) :
    (asked.map Query.className).Sublist names := by
  induction h with
  | silent => exact List.nil_sublist _
  | forced _ _ _ ih => exact ih.cons _
  | undecided => simp
  | affirmed => simp
  | denied _ _ _ _ ih => exact ih.cons_cons _

theorem not_forces (h : Inquiry policy oracle s earlier before names asked pending) :
    ∀ q ∈ asked, ¬policy.forces s.hierarchy q.className := by
  induction h with
  | silent => simp
  | forced _ _ _ ih => exact ih
  | undecided _ hfree => simpa using hfree
  | affirmed _ hfree => simpa using hfree
  | denied _ hfree _ _ ih => exact List.forall_mem_cons.2 ⟨hfree, ih⟩

/-- All questions but the last have been answered in the negative. -/
theorem answer_eq (h : Inquiry policy oracle s earlier before names asked pending)
    {first later : List Query} {q : Query} (hasked : asked = first ++ q :: later) :
    (later ≠ [] → oracle.answer (first.reverse ++ earlier) q = .ok false) ∧
      ∀ e, oracle.answer (first.reverse ++ earlier) q = .error e → pending = some (q, e) := by
  induction h generalizing first with
  | silent => simp at hasked
  | forced _ _ _ ih => exact ih hasked
  | undecided _ _ hanswer =>
    obtain ⟨rfl, rfl, rfl⟩ : first = [] ∧ q = _ ∧ later = [] := by
      simpa [List.singleton_eq_append_iff] using hasked
    simp [hanswer]
  | affirmed _ _ hanswer =>
    obtain ⟨rfl, rfl, rfl⟩ : first = [] ∧ q = _ ∧ later = [] := by
      simpa [List.singleton_eq_append_iff] using hasked
    simp [hanswer]
  | denied _ _ hanswer _ ih =>
    cases first with
    | nil =>
      obtain ⟨rfl, rfl⟩ := List.cons.inj hasked
      simp [hanswer]
    | cons q' first =>
      obtain ⟨rfl, hrest⟩ := List.cons.inj hasked
      simpa using ih hrest

end Inquiry

theorem verdict_of_forces {h : Hierarchy} {asked : List Query} {q : Query}
    (hforces : policy.forces h q.className) :
    verdict policy oracle h asked q = (.ok false, asked) :=
  if_pos hforces

theorem verdict_of_not_forces {h : Hierarchy} {asked : List Query} {q : Query}
    (hfree : ¬policy.forces h q.className) :
    verdict policy oracle h asked q = (oracle.answer asked q, q :: asked) :=
  if_neg hfree

namespace Exec

variable {σ τ ρ : Session} {created before rest : List String} {name : String}

theorem needsInitialization_verdict {r : Except FailureCause Bool}
    (hnew : ¬σ.state.hasKlass name)
    (h : (needsInitialization policy oracle name).apply σ = (r, τ)) :
    τ.queries = (verdict policy oracle σ.state.hierarchy σ.queries ⟨name, σ.state.path⟩).2 ∧
    match (verdict policy oracle σ.state.hierarchy σ.queries ⟨name, σ.state.path⟩).1 with
    | .error e => r = .error (.fault (.decision e)) ∧ τ.state = σ.state
    | .ok true => r ≠ .ok true
    | .ok false => r = .ok true ∧ Grows σ.state [] [.notInitialized name] τ.state := by
  obtain ⟨events, hdecide⟩ := apply_decideInitialized policy oracle name σ
  rw [needsInitialization, apply_state_bind, if_neg hnew, apply_bind, apply_mapError, hdecide] at h
  dsimp only at h
  cases hverdict : (verdict policy oracle σ.state.hierarchy σ.queries ⟨name, σ.state.path⟩).1 with
  | error e =>
    rw [hverdict] at h
    cases h
    exact ⟨rfl, rfl, rfl⟩
  | ok initialized =>
    rw [hverdict] at h
    dsimp only [Except.mapError] at h
    cases initialized with
    | true =>
      rw [if_pos rfl, apply_note_bind, apply_bind, apply_mapError] at h
      rcases hassume : (assumeClassInitialized name).apply _ with ⟨e | _, π⟩
      · rw [hassume] at h
        cases h
        exact ⟨(assumeClassInitialized_silent name).of_apply hassume, by simp⟩
      · rw [hassume] at h
        cases h
        exact ⟨(assumeClassInitialized_silent name).of_apply hassume, by simp⟩
    | false =>
      cases h
      exact ⟨rfl, rfl, .assume _ _⟩

/-- What has been asked on the way to an end, and where a question without an answer leaves the
session. -/
def Inquires (policy : InitializationPolicy) (oracle : Oracle) (s : State) (σ : Session)
    (before names : List String) (r : Except Abandoned (List Staged)) (τ : Session) : Prop :=
  ∃ asked pending, Inquiry policy oracle s σ.queries before names asked pending ∧
    τ.queries = asked.reverse ++ σ.queries ∧
    ∀ q e, pending = some (q, e) → (∃ a, r = .error a ∧ a.cause = .fault (.decision e)) ∧
      τ.state.path = q.path ∧ ¬τ.state.hasKlass q.className

theorem Inquires.silent {names : List String} {r : Except Abandoned (List Staged)}
    (hqueries : τ.queries = σ.queries) : Inquires policy oracle s σ before names r τ :=
  ⟨[], none, .silent, hqueries, by simp⟩

/-- The pass over a class that has no entry yet asks about the classes after it. -/
def StageInquires (policy : InitializationPolicy) (oracle : Oracle) (s : State)
    (rest : List String) : Prop :=
  ∀ ⦃created before : List String⦄ ⦃name : String⦄ ⦃σ τ : Session⦄
    ⦃r : Except Abandoned (List Staged)⦄,
    s.Reaches before name σ.state → ¬s.HasKlassWith before name →
    (stage policy oracle created (name :: rest)).apply σ = (r, τ) →
    Inquires policy oracle s σ (before ++ [name]) rest r τ

theorem StageInquires.stageAbove {superName : String}
    (hstage : StageInquires policy oracle s rest) (hstate : s.Initializing before [] ρ.state)
    {r : Except Abandoned (List Staged)}
    (h : (stageAbove policy oracle created (superName :: rest)).apply ρ = (r, τ)) :
    Inquires policy oracle s ρ before (superName :: rest) r τ := by
  rw [Exec.stageAbove, apply_bind, apply_mapError] at h
  by_cases hhas : ρ.state.hasKlass superName
  · rw [needsInitialization, apply_state_bind, if_pos hhas] at h
    cases h
    exact .silent rfl
  rcases hneeds : (needsInitialization policy oracle superName).apply ρ with ⟨r', π⟩
  rw [hneeds] at h
  obtain ⟨hqueries, hverdict⟩ := needsInitialization_verdict hhas hneeds
  rw [hstate.path_eq, hstate.hierarchy] at hqueries hverdict
  have hnew : ¬s.HasKlassWith before superName := by rwa [← hstate.hasKlass_iff]
  by_cases hforces : policy.forces s.hierarchy superName
  · rw [verdict_of_forces hforces] at hqueries hverdict
    obtain ⟨rfl, hgrows⟩ := hverdict
    obtain ⟨asked, pending, hinquiry, hasked, hpending⟩ :=
      hstage (hstate.reaches hgrows) hnew h
    rw [hqueries] at hinquiry hasked
    exact ⟨asked, pending, .forced hnew hforces hinquiry, hasked, hpending⟩
  rw [verdict_of_not_forces hforces] at hqueries hverdict
  dsimp only at hqueries hverdict
  cases hanswer : oracle.answer ρ.queries ⟨superName, s.pathWith before⟩ with
  | error e =>
    rw [hanswer] at hverdict
    obtain ⟨rfl, hsame⟩ := hverdict
    cases h
    refine ⟨_, _, .undecided hnew hforces hanswer, hqueries, fun q e' heq => ?_⟩
    cases heq
    refine ⟨⟨_, rfl, rfl⟩, ?_, ?_⟩
    · rw [hsame, hstate.path_eq]
    · rwa [hsame]
  | ok initialized =>
    rw [hanswer] at hverdict
    cases initialized with
    | true =>
      have hend : τ.queries = π.queries := by
        rcases r' with cause | _ | _
        · cases h
          rfl
        · cases h
          rfl
        · exact absurd rfl hverdict
      exact ⟨_, _, .affirmed hnew hforces hanswer, hend.trans hqueries, by simp⟩
    | false =>
      obtain ⟨rfl, hgrows⟩ := hverdict
      obtain ⟨asked, pending, hinquiry, hasked, hpending⟩ :=
        hstage (hstate.reaches hgrows) hnew h
      rw [hqueries] at hinquiry hasked
      refine ⟨_, _, .denied hnew hforces hanswer hinquiry, ?_, hpending⟩
      rw [hasked, List.reverse_cons, List.append_assoc, List.singleton_append]

theorem stageFrame_silent (created : List String) (name : String) (above : List Staged) :
    Silent (stageFrame created name above) :=
  .bind .state fun _ => .bind (.mapError (.lift _) _) fun _ => (note_silent _).bind fun _ => .pure _

/-- Before and after the superclasses the pass over a class asks nothing. -/
theorem inquires_of_above {r : Except Abandoned (List Staged)}
    (habove : ∀ ρ r τ, s.Initializing (before ++ [name]) [] ρ.state →
      (stageAbove policy oracle (created ++ [name]) rest).apply ρ = (r, τ) →
      Inquires policy oracle s ρ (before ++ [name]) rest r τ)
    (hreaches : s.Reaches before name σ.state) (hnew : ¬s.HasKlassWith before name)
    (h : (stage policy oracle created (name :: rest)).apply σ = (r, τ)) :
    Inquires policy oracle s σ (before ++ [name]) rest r τ := by
  rcases hcreate : (createKlass name).apply σ with ⟨e | _, ρ⟩
  · rw [stage_cons, apply_bind, apply_mapError, hcreate] at h
    cases h
    exact .silent ((createKlass_silent name).of_apply hcreate)
  rw [← hreaches.hasKlass_iff] at hnew
  obtain ⟨hsame, -, hentry⟩ := createKlass_ok hnew hcreate
  rw [apply_stage_cons hcreate, apply_bind] at h
  rcases hrun : (stageAbove policy oracle (created ++ [name]) rest).apply ρ with ⟨a | above, π⟩
  · obtain ⟨asked, pending, hinquiry, hasked, hpending⟩ :=
      habove ρ _ π (hreaches.initializing hentry) hrun
    rw [hrun] at h
    cases h
    rw [hsame] at hinquiry hasked
    exact ⟨asked, pending, hinquiry, hasked, hpending⟩
  · obtain ⟨asked, pending, hinquiry, hasked, hpending⟩ :=
      habove ρ _ π (hreaches.initializing hentry) hrun
    rw [hrun] at h
    have hqueries := (stageFrame_silent created name above).of_apply h
    rw [hsame] at hinquiry hasked
    refine ⟨asked, pending, hinquiry, hqueries.trans hasked, fun q e heq => ?_⟩
    obtain ⟨⟨a, ha, -⟩, -⟩ := hpending q e heq
    cases ha

theorem stage_inquires (policy : InitializationPolicy) (oracle : Oracle) (s : State)
    (rest : List String) : StageInquires policy oracle s rest := by
  induction rest with
  | nil =>
    intro created before name σ τ r
    refine inquires_of_above fun ρ r τ _ h => ?_
    cases h
    exact .silent rfl
  | cons superName rest ih =>
    intro created before name σ τ r
    exact inquires_of_above fun ρ r τ hstate h => ih.stageAbove hstate h

variable {className : String} {r : Except ExecutionError Initialization}

theorem conclude_silent (policy : InitializationPolicy) (className : String)
    (r : Except Abandoned (List Staged)) : Silent (conclude policy className r) := by
  refine .bind (.attempt (.bind (.lift r) fun staged => (commit_stores _ _ _).silent))
    fun outcome => ?_
  split
  · exact .pure _
  · exact ((rollBack_stores _ _ _).silent.mapError _).bind fun _ => failInitialization_silent _

/-- If entries are kept, a fault in the first pass leaves the session as it was found. -/
theorem conclude_fault {a : Abandoned} {e : ExecutionError} (hkeeps : ¬policy.removeKlasses)
    (hframes : a.frames = 0) (hcause : a.cause = .fault e)
    (h : (conclude policy className (.error a)).apply σ = (r, τ)) :
    r = .error e ∧ τ.state.path = σ.state.path ∧
      ∀ name, τ.state.hasKlass name = σ.state.hasKlass name := by
  obtain ⟨ρ, hrollBack, -, hpath, hstatics⟩ := rollBack_spec policy className σ hframes
  have hrun : (conclude policy className (.error a)).apply σ = (.error e, ρ) := by
    have hconclude : (conclude policy className (.error a)).apply σ =
        (mapError .state (rollBack policy className a) >>=
          fun _ => failInitialization a.cause).apply σ := rfl
    rw [hconclude, apply_bind, apply_mapError, hrollBack, hcause]
    rfl
  cases hrun.symm.trans h
  refine ⟨rfl, hpath, fun name => ?_⟩
  rw [State.hasKlass, Table.contains, hstatics, if_neg fun hremoved => hkeeps hremoved.1]
  rfl

theorem pathWith_nil (s : State) : s.pathWith [] = s.path := by
  rw [State.pathWith, List.map_nil, List.append_nil]

/-- The questions of an initialization that has come to its first pass. -/
theorem BeginsPass.inquiry {ι : Session} (hbegins : BeginsPass policy oracle className σ ι)
    (hrest : σ.state.hierarchy.initializationChain className = className :: rest)
    (h : (initializeClass policy oracle className).apply σ = (r, τ)) :
    ∃ asked pending, Inquiry policy oracle σ.state ι.queries [className] rest asked pending ∧
      τ.queries = asked.reverse ++ ι.queries ∧
      (¬policy.removeKlasses → ∀ q e, pending = some (q, e) →
        r = .error (.decision e) ∧ τ.state.path = q.path ∧ ¬τ.state.hasKlass q.className) := by
  have hreaches : σ.state.Reaches [] className ι.state := by
    rw [hbegins.state_eq]
    exact Grows.assume σ.state (.notInitialized className)
  have hnew : ¬σ.state.HasKlassWith [] className := by simpa [State.HasKlassWith] using hbegins.1
  rcases hstage : (stage policy oracle []
    (σ.state.hierarchy.initializationChain className)).apply ι with ⟨staged, ω⟩
  rw [initializeClass_eq_conclude hbegins hstage] at h
  have hsame := (conclude_silent policy className staged).of_apply h
  obtain ⟨asked, pending, hinquiry, hasked, hpending⟩ :=
    stage_inquires policy oracle σ.state rest hreaches hnew (hrest ▸ hstage)
  refine ⟨asked, pending, hinquiry, hsame.trans hasked, fun hkeeps q e heq => ?_⟩
  obtain ⟨⟨a, rfl, hcause⟩, hpath, habsent⟩ := hpending q e heq
  obtain ⟨-, hframes, -⟩ := stage_initializationChain_error hstage hreaches hbegins.1
  obtain ⟨hr, hpath', hhas⟩ := conclude_fault hkeeps hframes hcause h
  exact ⟨hr, hpath'.trans hpath, by rwa [hhas]⟩

/-- Nothing is asked after the class has been affirmed. -/
theorem queries_of_affirmed (hnew : ¬σ.state.hasKlass className)
    (hdecide : (decideInitialized policy oracle className).apply σ = (.ok true, ρ))
    (h : (initializeClass policy oracle className).apply σ = (r, τ)) : τ.queries = ρ.queries := by
  rw [initializeClass, apply_state_bind, if_neg hnew, apply_bind, hdecide] at h
  dsimp only at h
  rw [if_pos rfl] at h
  refine Silent.of_apply (.bind (note_silent _) fun _ => ?_) h
  refine (assumeClassInitialized_silent className).attempt.bind fun outcome => ?_
  split
  · exact .pure _
  · exact failInitialization_silent _

theorem initializeClass_inquiry (h : (initializeClass policy oracle className).apply σ = (r, τ)) :
    ∃ asked pending, Inquiry policy oracle σ.state σ.queries []
        (σ.state.hierarchy.initializationChain className) asked pending ∧
      τ.queries = asked.reverse ++ σ.queries ∧
      (¬σ.state.hasKlass className → ¬policy.forces σ.state.hierarchy className →
        asked.head? = some ⟨className, σ.state.path⟩) ∧
      (¬policy.removeKlasses → ∀ q e, pending = some (q, e) →
        r = .error (.decision e) ∧ τ.state.path = q.path ∧ ¬τ.state.hasKlass q.className) := by
  by_cases hhas : σ.state.hasKlass className
  · rw [initializeClass, apply_state_bind, if_pos hhas] at h
    cases h
    exact ⟨[], none, .silent, rfl, fun hnew => absurd hhas hnew, by simp⟩
  obtain ⟨rest, hrest⟩ := Hierarchy.walkUp_of_notMem (h := σ.state.hierarchy)
    (List.not_mem_nil (a := className))
  have hnew : ¬σ.state.HasKlassWith [] className := by simpa [State.HasKlassWith] using hhas
  -- no class has been passed yet, so the class is asked about on the path of the session itself
  have hpath := pathWith_nil σ.state
  obtain ⟨events, hdecide⟩ := apply_decideInitialized policy oracle className σ
  by_cases hforces : policy.forces σ.state.hierarchy className
  · rw [verdict_of_forces hforces] at hdecide
    obtain ⟨asked, pending, hinquiry, hasked, hpending⟩ :=
      BeginsPass.inquiry ⟨hhas, _, hdecide, rfl⟩ hrest h
    refine ⟨asked, pending, ?_, hasked, fun _ hfree => absurd hforces hfree, hpending⟩
    rw [Hierarchy.initializationChain, hrest]
    exact .forced hnew hforces hinquiry
  rw [verdict_of_not_forces hforces] at hdecide
  rw [Hierarchy.initializationChain, hrest, ← hpath]
  cases hanswer : oracle.answer σ.queries ⟨className, σ.state.path⟩ with
  | error e =>
    rw [hanswer] at hdecide
    rw [initializeClass, apply_state_bind, if_neg hhas, apply_bind, hdecide] at h
    cases h
    refine ⟨_, _, .undecided hnew hforces (hpath ▸ hanswer), ?_, fun _ _ => rfl, ?_⟩
    · rw [hpath]
      rfl
    · intro _ q e' heq
      cases heq
      exact ⟨rfl, hpath.symm, hhas⟩
  | ok initialized =>
    rw [hanswer] at hdecide
    cases initialized with
    | true =>
      refine ⟨_, _, .affirmed hnew hforces (hpath ▸ hanswer), ?_, fun _ _ => rfl, by simp⟩
      rw [hpath]
      exact queries_of_affirmed hhas hdecide h
    | false =>
      obtain ⟨asked, pending, hinquiry, hasked, hpending⟩ :=
        BeginsPass.inquiry ⟨hhas, _, hdecide, rfl⟩ hrest h
      refine ⟨_ :: asked, pending, .denied hnew hforces (hpath ▸ hanswer) ?_, ?_,
        fun _ _ => rfl, hpending⟩
      · rw [hpath]
        exact hinquiry
      · rw [hasked, hpath]
        simp

/-- The question has been asked between the two sessions, after the others. -/
def Asks (σ τ : Session) (history : List Query) (q : Query) : Prop :=
  σ.queries <:+ history ∧ q :: history <:+ τ.queries

theorem Asks.split {history asked : List Query} {q : Query} (h : Asks σ τ history q)
    (hasked : τ.queries = asked.reverse ++ σ.queries) :
    ∃ first later, asked = first ++ q :: later ∧ history = first.reverse ++ σ.queries := by
  obtain ⟨⟨first, rfl⟩, later, hlater⟩ := h
  rw [hasked, ← List.cons_append, ← List.append_assoc, List.append_cancel_right_eq] at hlater
  exact ⟨first.reverse, later.reverse, by rw [← List.reverse_reverse asked, ← hlater]; simp,
    by simp⟩

theorem stage_keeping (created names : List String) :
    stage policy.keeping oracle created names = stage policy oracle created names := by
  induction names generalizing created with
  | nil => rfl
  | cons name rest ih =>
    simp only [stage, ih]
    rfl

/-- What is asked does not depend on whether entries are removed in the end. -/
theorem initializeClass_keeping (policy : InitializationPolicy) (oracle : Oracle)
    (className : String) (σ : Session) :
    ((initializeClass policy.keeping oracle className).apply σ).2.queries =
      ((initializeClass policy oracle className).apply σ).2.queries := by
  by_cases hhas : σ.state.hasKlass className
  · rw [initializeClass, initializeClass, apply_state_bind, apply_state_bind, if_pos hhas,
      if_pos hhas]
  rcases hdecide : (decideInitialized policy oracle className).apply σ with ⟨r, ρ⟩
  have hkeeping : (decideInitialized policy.keeping oracle className).apply σ = (r, ρ) := hdecide
  rcases r with e | _ | _
  · rw [initializeClass, initializeClass, apply_state_bind, apply_state_bind, if_neg hhas,
      if_neg hhas, apply_bind, apply_bind, hdecide, hkeeping]
  · rcases hstage : (stage policy oracle []
      (σ.state.hierarchy.initializationChain className)).apply _ with ⟨staged, ω⟩
    rw [initializeClass_eq_conclude ⟨hhas, ρ, hdecide, rfl⟩ hstage,
      initializeClass_eq_conclude ⟨hhas, ρ, hkeeping, rfl⟩ (stage_keeping [] _ ▸ hstage),
      (conclude_silent policy className staged).queries_eq,
      (conclude_silent policy.keeping className staged).queries_eq]
  · rw [initializeClass, initializeClass, apply_state_bind, apply_state_bind, if_neg hhas,
      if_neg hhas, apply_bind, apply_bind, hdecide, hkeeping]
    rfl

/-- The session in which the initialization of a class comes to a question, after so many others:
nothing changes any more if the oracle has no answer and no entry is removed. -/
def sessionAt (policy : InitializationPolicy) (oracle : Oracle) (className : String) (σ : Session)
    (n : Nat) : Session :=
  ((initializeClass policy.keeping (oracle.upTo n) className).apply σ).2

/-- An oracle that answers the questions before a question is asked this question, too. -/
theorem suffix_sessionAt {history : List Query} {q : Query}
    (h : Asks σ ((initializeClass policy oracle className).apply σ).2 history q) :
    q :: history <:+ (sessionAt policy oracle className σ history.length).queries := by
  obtain ⟨-, hasked⟩ := h
  rw [← initializeClass_keeping] at hasked
  rcases (initializeClass_tracks oracle (oracle.upTo history.length) className).same_or_part σ with
    hsame | ⟨q', earlier, -, hleft, hright, hdiffer⟩
  · rwa [sessionAt, hsame]
  · have hlength : history.length ≤ earlier.length := by
      by_contra hless
      exact hdiffer (if_pos (Nat.lt_of_not_le hless)).symm
    exact (List.suffix_of_suffix_length_le hasked hleft (Nat.succ_le_succ hlength)).trans hright

/-- The session in which a question is asked has no entry for the class in question. -/
theorem sessionAt_of_asks {history : List Query} {q : Query}
    (h : Asks σ ((initializeClass policy oracle className).apply σ).2 history q) :
    (sessionAt policy oracle className σ history.length).queries = q :: history ∧
      (sessionAt policy oracle className σ history.length).state.path = q.path ∧
      ¬(sessionAt policy oracle className σ history.length).state.hasKlass q.className := by
  have hsuffix := suffix_sessionAt h
  rcases hrun : (initializeClass policy.keeping (oracle.upTo history.length) className).apply σ
    with ⟨r, τ⟩
  rw [sessionAt, hrun] at hsuffix ⊢
  obtain ⟨asked, pending, hinquiry, hasked, -, hpending⟩ := initializeClass_inquiry hrun
  obtain ⟨first, later, rfl, rfl⟩ := Asks.split ⟨h.1, hsuffix⟩ hasked
  obtain ⟨hdenied, hundecided⟩ := hinquiry.answer_eq rfl
  obtain ⟨e, hanswer⟩ := oracle.upTo_length_answer (first.reverse ++ σ.queries) q
  obtain rfl : later = [] := by
    by_contra hlater
    cases hanswer.symm.trans (hdenied hlater)
  obtain ⟨-, hpath, habsent⟩ := hpending (by simp [InitializationPolicy.keeping]) q e
    (hundecided e hanswer)
  exact ⟨by simpa using hasked, hpath, habsent⟩

/-- **The questions that the initialization of a class puts to the oracle.** They are about
different classes on the way up the superclasses of the class, from the class itself on unless it is
a forced enum class. No question is about a forced enum class or a class that has an entry when it
is asked, and all but the last have been answered in the negative. An oracle that gives these
questions the same answers makes for the same result and the same session. -/
theorem initializeClass_questions (policy : InitializationPolicy) (oracle : Oracle)
    (className : String) (σ : Session) :
    let run := (initializeClass policy oracle className).apply σ
    let chain := σ.state.hierarchy.initializationChain className
    (chain.head? = some className ∧ chain.IsChain σ.state.hierarchy.LeadsTo ∧ chain.Nodup) ∧
    (∃ asked : List Query, run.2.queries = asked.reverse ++ σ.queries ∧
      (asked.map Query.className).Nodup ∧ (asked.map Query.className).Sublist chain ∧
      (¬σ.state.hasKlass className → ¬policy.forces σ.state.hierarchy className →
        asked.head? = some ⟨className, σ.state.path⟩)) ∧
    (∀ history q, Asks σ run.2 history q →
      ¬policy.forces σ.state.hierarchy q.className ∧
      (q :: history ≠ run.2.queries → oracle.answer history q = .ok false) ∧
      (sessionAt policy oracle className σ history.length).queries = q :: history ∧
      (sessionAt policy oracle className σ history.length).state.path = q.path ∧
      ¬(sessionAt policy oracle className σ history.length).state.hasKlass q.className) ∧
    ∀ oracle' : Oracle,
      (∀ history q, Asks σ run.2 history q →
        oracle'.answer history q = oracle.answer history q) →
      (initializeClass policy oracle' className).apply σ = run := by
  intro run chain
  have hchain : chain.Nodup := (Hierarchy.nodup_walkUp [] className).1
  obtain ⟨rest, hrest⟩ := Hierarchy.walkUp_of_notMem (h := σ.state.hierarchy)
    (List.not_mem_nil (a := className))
  obtain ⟨asked, pending, hinquiry, hasked, hfirst, -⟩ :=
    initializeClass_inquiry (Prod.mk.eta : (run.1, run.2) = run).symm
  refine ⟨⟨?_, Hierarchy.isChain_walkUp [] className, hchain⟩,
    ⟨asked, hasked, hinquiry.sublist.nodup hchain, hinquiry.sublist, hfirst⟩, ?_, ?_⟩
  · rw [show chain = className :: rest from hrest, List.head?_cons]
  · intro history q h
    obtain ⟨first, later, hsplit, hhistory⟩ := h.split hasked
    refine ⟨hinquiry.not_forces q (by simp [hsplit]), fun hlast => ?_, sessionAt_of_asks h⟩
    rw [hhistory]
    refine (hinquiry.answer_eq hsplit).1 fun hlater => hlast ?_
    rw [hasked, hsplit, hhistory, hlater]
    simp
  · intro oracle' hagrees
    rcases (initializeClass_tracks oracle oracle' className).same_or_part σ with
      hsame | ⟨q, history, hbefore, hleft, -, hdiffer⟩
    · exact hsame
    · exact absurd (hagrees history q ⟨hbefore, hleft⟩).symm hdiffer

/-- Of the four classes the topmost has been initialized before. An oracle that would affirm other
classes, and has no answer for some, makes no difference if it agrees about these four. -/
theorem initializeClass_questions_ladder :
    let oracle := Oracle.scripted false (Table.ofList [("Root", true)]) []
    let other := Oracle.scripted true
      (Table.ofList [("Leaf", false), ("Middle", false), ("Base", false)]) ["Twig"]
    let run := (initializeClass .standard oracle "Leaf").apply (ladderSession .empty)
    run.2.queries.map Query.className = ["Root", "Base", "Middle", "Leaf"] ∧
      (initializeClass .standard other "Leaf").apply (ladderSession .empty) = run := by
  intro oracle other run
  have hnames : run.2.queries.map Query.className = ["Root", "Base", "Middle", "Leaf"] := by
    decide +kernel
  obtain ⟨-, -, -, hagreeing⟩ :=
    initializeClass_questions .standard oracle "Leaf" (ladderSession .empty)
  refine ⟨hnames, hagreeing other fun history q hasks => ?_⟩
  have hmem : q.className ∈ ["Root", "Base", "Middle", "Leaf"] := by
    rw [← hnames]
    exact List.mem_map_of_mem (hasks.2.subset List.mem_cons_self)
  -- neither oracle looks at more than the name
  have hagree : ∀ name ∈ ["Root", "Base", "Middle", "Leaf"],
      other.answer [] ⟨name, .empty⟩ = oracle.answer [] ⟨name, .empty⟩ := by
    decide +kernel
  exact hagree _ hmem

end Exec

end SymbolicBytecode

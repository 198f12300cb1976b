import Mathlib
import SymbolicBytecode.Proofs.References
import SymbolicBytecode.Proofs.Runs

/-!
# Resolutions

A symbolic reference can be resolved only as long as it is not, and neither assumptions nor objects
are ever taken back. So what a reference refers to is settled by one assumption and for good:
`State.Settled` is what that means in one state, `State.Continues` from one state to a later one.
-/
namespace SymbolicBytecode

open Relation (ReflTransGen)
open Session (ValueChange ThreadChange Change)

variable {s t u : State} {added added' : List Clause} {σ τ : Session}

/-- The position of the object that a clause says was made for a reference. -/
def Clause.expansion? : Clause → Option Nat
  | expands _ position _ => some position
  | _ => none

theorem Clause.resolves?_of_expansion? {c : Clause} {position : Nat}
    (h : c.expansion? = some position) : ∃ id, c.resolves? = some (id, .position position) := by
  cases c with
  | expands id p className =>
    cases h
    exact ⟨id, rfl⟩
  | _ => cases h

namespace PathCondition

variable {p : PathCondition} {id : Nat} {r : Resolution}

/-- The symbolic references that are resolved, and to what, in the order of the assumptions. -/
def resolved (p : PathCondition) : List (Nat × Resolution) := p.clauses.filterMap Clause.resolves?

theorem resolution?_eq_none (h : p.resolution? id = none) : id ∉ p.resolved.map Prod.fst := by
  intro hmem
  obtain ⟨⟨_, r⟩, hr, rfl⟩ := List.mem_map.1 hmem
  obtain ⟨c, hc, hresolves⟩ := List.mem_filterMap.1 hr
  have hnone := List.findSome?_eq_none_iff.1 h c (List.mem_reverse.2 hc)
  simp [hresolves] at hnone

/-- If no reference is resolved twice, then what is assumed of a reference counts. -/
theorem resolution?_eq_some_iff (honce : (p.resolved.map Prod.fst).Nodup) :
    p.resolution? id = some r ↔ (id, r) ∈ p.resolved := by
  have hmem {r : Resolution} (h : p.resolution? id = some r) : (id, r) ∈ p.resolved :=
    List.mem_filterMap.2 (exists_clause_of_resolution? h)
  refine ⟨hmem, fun hr => ?_⟩
  cases hfound : p.resolution? id with
  | none => exact absurd (List.mem_map_of_mem hr) (resolution?_eq_none hfound)
  | some r' =>
    cases List.inj_on_of_nodup_map honce (hmem hfound) hr rfl
    rfl

end PathCondition

namespace State

/-- The second state goes on from the first: the given assumptions are made, and no object is taken
away or gets another class. An object that is made for a reference was not there before. -/
structure Continues (s : State) (added : List Clause) (t : State) : Prop where
  path : t.path.clauses = s.path.clauses ++ added
  classes : ∀ p o, s.heap.get? p = some o →
    ∃ o', t.heap.get? p = some o' ∧ o'.className = o.className
  fresh : ∀ position ∈ added.filterMap Clause.expansion?, s.heap.size ≤ position

namespace Continues

theorem size_le (h : Continues s added t) : s.heap.size ≤ t.heap.size := by
  by_contra hlt
  obtain ⟨o, ho⟩ := Heap.exists_get?_iff.2 (Nat.lt_of_not_le hlt)
  obtain ⟨o', ho', -⟩ := h.classes _ o ho
  exact absurd (Heap.exists_get?_iff.1 ⟨o', ho'⟩) (lt_irrefl _)

theorem trans (h : Continues s added t) (h' : Continues t added' u) :
    Continues s (added ++ added') u where
  path := by rw [h'.path, h.path, List.append_assoc]
  classes p o ho := by
    obtain ⟨o', ho', hclass⟩ := h.classes p o ho
    obtain ⟨o'', ho'', hclass'⟩ := h'.classes p o' ho'
    exact ⟨o'', ho'', hclass'.trans hclass⟩
  fresh position hposition := by
    rw [List.filterMap_append, List.mem_append] at hposition
    rcases hposition with hold | hnew
    · exact h.fresh position hold
    · exact h.size_le.trans (h'.fresh position hnew)

theorem of_path (hpath : t.path.clauses = s.path.clauses ++ added) (hheap : t.heap = s.heap)
    (hfresh : ∀ c ∈ added, c.expansion? = none) : Continues s added t where
  path := hpath
  classes _ o ho := ⟨o, hheap ▸ ho, rfl⟩
  fresh position hposition := by
    obtain ⟨c, hc, hexpansion⟩ := List.mem_filterMap.1 hposition
    cases (hfresh c hc).symm.trans hexpansion

theorem of_heap (hpath : t.path = s.path) (hheap : t.heap = s.heap) : Continues s [] t :=
  of_path (by rw [hpath, List.append_nil]) hheap (by simp)

theorem refl (s : State) : Continues s [] s := of_heap rfl rfl

theorem set {p : Nat} {o o' : HeapObject} (hget : s.heap.get? p = some o)
    (hclass : o'.className = o.className) :
    Continues s [] { s with heap := s.heap.set p o' } where
  path := (List.append_nil _).symm
  classes q oq hq := by
    rw [Heap.get?_set o' (Heap.exists_get?_iff.1 ⟨o, hget⟩)]
    split
    · next heq =>
      cases hget.symm.trans (heq ▸ hq)
      exact ⟨o', rfl, hclass⟩
    · exact ⟨oq, hq, rfl⟩
  fresh := by simp

end Continues

/-- The second state goes on from the first without resolving anything. -/
def Proceeds (s t : State) : Prop :=
  ∃ added, Continues s added t ∧ ∀ c ∈ added, c.resolves? = none

namespace Proceeds

theorem of_continues (h : Continues s [] t) : Proceeds s t := ⟨[], h, by simp⟩

theorem trans (h : Proceeds s t) (h' : Proceeds t u) : Proceeds s u := by
  obtain ⟨added, h, hnone⟩ := h
  obtain ⟨added', h', hnone'⟩ := h'
  refine ⟨added ++ added', h.trans h', fun c hc => ?_⟩
  exact (List.mem_append.1 hc).elim (hnone c) (hnone' c)

theorem assume {c : Clause} (hresolves : c.resolves? = none) (hexpansion : c.expansion? = none)
    (hpath : t.path = s.path.push c) (hheap : t.heap = s.heap) : Proceeds s t := by
  refine ⟨[c], .of_path (by rw [hpath]; rfl) hheap ?_, ?_⟩ <;> simpa

end Proceeds

/-- No symbolic reference is resolved twice, what references are resolved to is in the heap, and no
two references had the same object made for them. -/
structure Settled (s : State) : Prop where
  once : (s.path.resolved.map Prod.fst).Nodup
  live : ∀ id position, (id, .position position) ∈ s.path.resolved → position < s.heap.size
  apart : (s.path.clauses.filterMap Clause.expansion?).Nodup

theorem create_settled (h : Hierarchy) (limit : Option Nat) (host : Host) :
    (create h limit host).Settled :=
  ⟨.nil, by simp [create, PathCondition.empty, PathCondition.resolved], .nil⟩

namespace Settled

theorem proceed (hs : s.Settled) (h : Proceeds s t) : t.Settled := by
  obtain ⟨added, h, hnone⟩ := h
  have hresolved : t.path.resolved = s.path.resolved := by
    have hadded : added.filterMap Clause.resolves? = [] := List.filterMap_eq_nil_iff.2 hnone
    rw [PathCondition.resolved, h.path, List.filterMap_append, hadded, List.append_nil]
    rfl
  have hexpansions : added.filterMap Clause.expansion? = [] := by
    refine List.filterMap_eq_nil_iff.2 fun c hc => ?_
    cases hexpansion : c.expansion? with
    | none => rfl
    | some position =>
      obtain ⟨id, hid⟩ := Clause.resolves?_of_expansion? hexpansion
      cases (hnone c hc).symm.trans hid
  refine ⟨hresolved ▸ hs.once, fun id position hmem => ?_, ?_⟩
  · exact (hs.live id position (hresolved ▸ hmem)).trans_le h.size_le
  · rw [h.path, List.filterMap_append, hexpansions, List.append_nil]
    exact hs.apart

theorem expansion_lt (hs : s.Settled) {position : Nat}
    (hposition : position ∈ s.path.clauses.filterMap Clause.expansion?) :
    position < s.heap.size := by
  obtain ⟨c, hc, hexpansion⟩ := List.mem_filterMap.1 hposition
  obtain ⟨id, hid⟩ := Clause.resolves?_of_expansion? hexpansion
  exact hs.live id position (List.mem_filterMap.2 ⟨c, hc, hid⟩)

/-- One more reference is resolved. An object that is made for it is not one of those before. -/
theorem resolve {c : Clause} {id : Nat} {r : Resolution} (hs : s.Settled)
    (h : Continues s [c] t) (hopen : s.path.resolution? id = none)
    (hresolves : c.resolves? = some (id, r))
    (hlive : ∀ position, r = .position position → position < t.heap.size) : t.Settled := by
  have hresolved : t.path.resolved = s.path.resolved ++ [(id, r)] := by
    rw [PathCondition.resolved, h.path, List.filterMap_append]
    simp [PathCondition.resolved, hresolves]
  refine ⟨?_, fun id' position hmem => ?_, ?_⟩
  · rw [hresolved, List.map_append]
    refine List.nodup_append.2 ⟨hs.once, List.nodup_singleton _, ?_⟩
    rintro a ha b hb rfl
    rw [List.mem_singleton.1 hb] at ha
    exact PathCondition.resolution?_eq_none hopen ha
  · rw [hresolved, List.mem_append, List.mem_singleton] at hmem
    rcases hmem with hold | hnew
    · exact (hs.live id' position hold).trans_le h.size_le
    · cases hnew
      exact hlive position rfl
  · rw [h.path, List.filterMap_append]
    refine List.nodup_append.2 ⟨hs.apart, ?_, ?_⟩
    · cases hexpansion : c.expansion? <;> simp [hexpansion]
    · rintro a ha b hb rfl
      exact absurd (hs.expansion_lt ha) (Nat.not_lt.2 (h.fresh a hb))

end Settled

end State

open State (Continues Proceeds)

theorem Session.adding_continues (σ : Session) (o : HeapObject) :
    Continues σ.state [] (σ.adding o).state where
  path := (List.append_nil _).symm
  classes p o' ho' := by
    have hlt : p < σ.state.heap.size := Heap.exists_get?_iff.1 ⟨o', ho'⟩
    refine ⟨o', ?_, rfl⟩
    rw [adding, Heap.get?_add, if_neg hlt.ne, ho']
  fresh := by simp

theorem Session.ThreadChange.proceeds (h : ThreadChange σ τ) : Proceeds σ.state τ.state := by
  cases h with
  | frames => exact .of_continues (.of_heap rfl rfl)
  | report => exact .of_continues (.refl _)
  | raise => exact .of_continues (σ.adding_continues _)
  | raiseFails => exact .of_continues (.refl _)

theorem Session.ValueChange.continues (h : ValueChange σ τ) : Continues σ.state [] τ.state := by
  cases h with
  | symbol => exact .of_heap rfl rfl
  | @intern _ text _ hrun =>
    obtain ⟨ρ, hinterns, rfl⟩ := Exec.internString_interns hrun
    cases hinterns with
    | known => exact .refl _
    | refused => exact .refl _
    | half => exact σ.adding_continues _
    | bare => exact (σ.adding_continues _).trans (adding_continues _ _)
    | @made fields =>
      have hboth := (σ.adding_continues (Exec.charArray text)).trans
        (adding_continues _ (.ofFields stringClass fields))
      have hget : ((σ.state.heap.add (Exec.charArray text)).add
          (.ofFields stringClass fields)).get? (σ.state.heap.size + 1) =
            some (.ofFields stringClass fields) := by
        rw [Heap.get?_add, if_pos (Heap.size_add _ _).symm]
      have hclass : (Exec.literalObject fields σ.state.heap.size).className =
        (HeapObject.ofFields stringClass fields).className := rfl
      exact (hboth.trans (.set hget hclass)).trans (.of_heap rfl rfl)

theorem Session.continues_of_steps (h : ReflTransGen ValueChange σ τ) :
    Continues σ.state [] τ.state := by
  induction h with
  | refl => exact .refl _
  | tail _ hlast ih => exact ih.trans hlast.continues

theorem Exec.Enters.proceeds {symbolic : Bool} {name : String}
    {enter : Table Value → Session → Session} (h : Enters symbolic name enter σ τ)
    (henter : ∀ values ρ, Proceeds ρ.state (enter values ρ).state) :
    Proceeds σ.state τ.state := by
  cases h with
  | present => exact .of_continues (.refl _)
  | refused _ hsteps => exact .of_continues (Session.continues_of_steps hsteps)
  | entered _ _ _ hvalues =>
    have hsteps := (initialValues_madeOf _ _ _ _).of_apply hvalues
    exact (Proceeds.of_continues (Session.continues_of_steps hsteps)).trans (henter _ _)

theorem Exec.createKlass_proceeds (name : String) (σ : Session) :
    Proceeds σ.state ((createKlass name).apply σ).2.state :=
  (createKlass_enters name σ).proceeds fun _ _ => .of_continues (.of_heap rfl rfl)

/-- What one step adds to the assumptions, and that it keeps what is settled. -/
theorem Session.Change.continues (h : Change true σ τ) :
    (∃ added, Continues σ.state added τ.state) ∧ (σ.state.Settled → τ.state.Settled) := by
  have hproceeds {τ : Session} (h : Proceeds σ.state τ.state) :
      (∃ added, Continues σ.state added τ.state) ∧ (σ.state.Settled → τ.state.Settled) :=
    ⟨h.imp fun _ => And.left, fun hσ => hσ.proceed h⟩
  cases h with
  | thread h => exact hproceeds h.proceeds
  | value h => exact hproceeds (.of_continues h.continues)
  | ask => exact hproceeds (.of_continues (.refl _))
  | allocate o => exact hproceeds (.of_continues (σ.adding_continues o))
  | store hget hclass => exact hproceeds (.of_continues (.set hget hclass))
  | @null id hopen =>
    have hnull : Continues σ.state [.isNull id] (σ.assuming (.isNull id)).state :=
      .of_path rfl rfl (by simp [Clause.expansion?])
    exact ⟨⟨_, hnull⟩, fun hσ => hσ.resolve hnull hopen rfl (by simp)⟩
  | @identify id p hopen hlive =>
    have haliases : Continues σ.state [.aliases id p] (σ.assuming (.aliases id p)).state :=
      .of_path rfl rfl (by simp [Clause.expansion?])
    refine ⟨⟨_, haliases⟩, fun hσ => hσ.resolve haliases hopen rfl fun position hp => ?_⟩
    cases hp
    exact hlive
  | @expand id o hopen =>
    have hadded := σ.adding_continues o
    have hexpands : Continues σ.state [.expands id σ.state.heap.size o.className]
        ((σ.adding o).assuming (.expands id σ.state.heap.size o.className)).state :=
      ⟨rfl, hadded.classes, by simp [Clause.expansion?]⟩
    refine ⟨⟨_, hexpands⟩, fun hσ => hσ.resolve hexpands hopen rfl fun position hp => ?_⟩
    cases hp
    exact (Heap.size_add _ _).symm ▸ Nat.lt_succ_self _
  | update => exact hproceeds (.of_continues (.of_heap rfl rfl))
  | create name => exact hproceeds (Exec.createKlass_proceeds name σ)
  | @declare name =>
    have hassume : Proceeds σ.state (σ.assuming (.notInitialized name)).state :=
      .assume (c := .notInitialized name) rfl rfl rfl rfl
    exact hproceeds (hassume.trans (Exec.createKlass_proceeds name _))
  | @presume c hget =>
    refine hproceeds ((Exec.assumeOneInitialized_enters hget).proceeds fun values ρ => ?_)
    exact .assume (c := .initialized c.name) rfl rfl rfl rfl
  | suppose name => exact hproceeds (.assume (c := .notInitialized name) rfl rfl rfl rfl)
  | remove => exact hproceeds (.of_continues (.of_heap rfl rfl))

theorem Session.run_continues (ops : List (Engine × Operation)) (hσ : σ.state.Settled) :
    (∃ added, Continues σ.state added (σ.run ops).state) ∧ (σ.run ops).state.Settled := by
  refine run_preserves (fun τ => (∃ added, Continues σ.state added τ.state) ∧ τ.state.Settled)
    (fun τ ρ (hchange : Change true τ ρ) => ?_) (fun τ o => ?_) (by simp)
    ⟨⟨[], .refl _⟩, hσ⟩
  · rintro ⟨⟨added, hcontinues⟩, hτ⟩
    obtain ⟨⟨added', hcontinues'⟩, hsettled⟩ := hchange.continues
    exact ⟨⟨_, hcontinues.trans hcontinues'⟩, hsettled hτ⟩
  · rintro ⟨⟨added, hcontinues⟩, hτ⟩
    have hadded := τ.adding_continues o
    exact ⟨⟨_, hcontinues.trans hadded⟩, hτ.proceed (.of_continues hadded)⟩

namespace State

variable {ref a b c : Reference} {r : Resolution} {position : Nat} {className : String}

theorem Continues.resolve?_eq (h : Continues s added t) (ht : t.Settled)
    (hresolve : s.resolve? ref = some r) : t.resolve? ref = some r := by
  cases ref with
  | concrete position => exact hresolve
  | symbolic ref =>
    obtain ⟨c, hc, hresolves⟩ := PathCondition.exists_clause_of_resolution? hresolve
    have hmem : c ∈ t.path.clauses := h.path ▸ List.mem_append_left added hc
    exact (PathCondition.resolution?_eq_some_iff ht.once).2
      (List.mem_filterMap.2 ⟨c, hmem, hresolves⟩)

theorem positionOf?_eq_some : s.positionOf? ref = some position ↔
    s.resolve? ref = some (.position position) := by
  unfold positionOf?
  split <;> simp_all

theorem classOf_eq_ok : s.classOf ref = .ok className ↔
    ∃ position o, s.resolve? ref = some (.position position) ∧ s.heap.get? position = some o ∧
      o.className = className := by
  constructor
  · intro h
    obtain ⟨o, hobject, hclass⟩ := except_bind_ok_iff.1 h
    obtain ⟨position, hposition, hfind⟩ := except_bind_ok_iff.1 hobject
    refine ⟨position, o, ?_, Heap.get?_of_find hfind, Except.ok.inj hclass⟩
    unfold objectPosition at hposition
    split at hposition
    · next hresolve =>
      cases hposition
      exact hresolve
    · cases hposition
    · split at hposition <;> cases hposition
  · rintro ⟨position, o, hresolve, hget, rfl⟩
    simp [classOf, object, objectPosition, hresolve, Heap.find, hget, bind, Except.bind, pure,
      Except.pure]

theorem aliases_iff : s.aliases a b ↔
    ∃ position, s.positionOf? a = some position ∧ s.positionOf? b = some position := by
  unfold aliases
  split
  · next p q hp hq => simp [hp, hq, eq_comm]
  · next hnone =>
    simp only [Bool.false_eq_true, false_iff]
    rintro ⟨p, hp, hq⟩
    exact hnone p p hp hq

theorem Continues.positionOf?_eq (h : Continues s added t) (ht : t.Settled)
    (hposition : s.positionOf? ref = some position) : t.positionOf? ref = some position :=
  positionOf?_eq_some.2 (h.resolve?_eq ht (positionOf?_eq_some.1 hposition))

theorem Continues.classOf_eq (h : Continues s added t) (ht : t.Settled)
    (hclass : s.classOf ref = .ok className) : t.classOf ref = .ok className := by
  obtain ⟨position, o, hresolve, hget, rfl⟩ := classOf_eq_ok.1 hclass
  obtain ⟨o', hget', hclass'⟩ := h.classes position o hget
  exact classOf_eq_ok.2 ⟨position, o', h.resolve?_eq ht hresolve, hget', hclass'⟩

theorem Settled.classOf_ok (hs : s.Settled) {ref : SymbolicRef}
    (hresolve : s.resolve? (.symbolic ref) = some (.position position)) :
    ∃ className, s.classOf (.symbolic ref) = .ok className := by
  have hmem := (PathCondition.resolution?_eq_some_iff hs.once).1 hresolve
  obtain ⟨o, ho⟩ := Heap.exists_get?_iff.2 (hs.live _ _ hmem)
  exact ⟨o.className, classOf_eq_ok.2 ⟨position, o, hresolve, ho, rfl⟩⟩

end State

/-- The state after some operations on an empty one. -/
def State.reached (h : Hierarchy) (limit : Option Nat) (host : Host)
    (ops : List (Engine × Operation)) : State :=
  ((Session.start (.create h limit host)).run ops).state

namespace State

/-- **What a symbolic reference refers to is settled once and for good.** In every state that is
reached, no reference is resolved by two assumptions, and what references are resolved to is in the
heap; the objects that were made for references are different ones. In every state reached later,
references still refer to the same, objects of the same class, and what was the same object still
is. An object that a later assumption says was made for a reference was not there before. -/
theorem reached_resolutions (h : Hierarchy) (limit : Option Nat) (host : Host)
    (ops later : List (Engine × Operation)) :
    (((reached h limit host ops).path.clauses.filterMap Clause.resolves?).map Prod.fst).Nodup ∧
    (∀ ref r, (reached h limit host ops).resolve? ref = some r →
      (reached h limit host (ops ++ later)).resolve? ref = some r) ∧
    (∀ c ∈ (reached h limit host ops).path.clauses, ∀ id position,
      c.resolves? = some (id, .position position) →
        ∃ o, (reached h limit host ops).heap.get? position = some o) ∧
    (∀ ref position,
      (reached h limit host ops).resolve? (.symbolic ref) = some (.position position) →
      ∃ className, (reached h limit host ops).classOf (.symbolic ref) = .ok className) ∧
    (∀ ref className, (reached h limit host ops).classOf ref = .ok className →
      (reached h limit host (ops ++ later)).classOf ref = .ok className) ∧
    ((reached h limit host ops).path.clauses.filterMap Clause.expansion?).Nodup ∧
    (∃ added, (reached h limit host (ops ++ later)).path.clauses =
        (reached h limit host ops).path.clauses ++ added ∧
      ∀ position ∈ added.filterMap Clause.expansion?,
        (reached h limit host ops).heap.get? position = none) ∧
    (∀ a b, (reached h limit host ops).aliases a b → (reached h limit host ops).aliases b a) ∧
    (∀ a b c, (reached h limit host ops).aliases a b → (reached h limit host ops).aliases b c →
      (reached h limit host ops).aliases a c) ∧
    (∀ ref, (reached h limit host ops).aliases ref ref ↔
      ∃ position, (reached h limit host ops).positionOf? ref = some position) ∧
    ∀ a b, (reached h limit host ops).aliases a b →
      (reached h limit host (ops ++ later)).aliases a b := by
  have hreached : (reached h limit host ops).Settled :=
    (Session.run_continues ops (create_settled h limit host)).2
  have hlater : reached h limit host (ops ++ later) =
      (((Session.start (.create h limit host)).run ops).run later).state := by
    rw [reached, Session.run_append]
  obtain ⟨⟨added, hcontinues⟩, hsettled⟩ := Session.run_continues later hreached
  rw [← hlater] at hcontinues hsettled
  change Continues (reached h limit host ops) added _ at hcontinues
  refine ⟨hreached.once, ?_, ?_, ?_, ?_, hreached.apart, ⟨added, hcontinues.path, ?_⟩, ?_, ?_, ?_,
    ?_⟩
  · intro ref r hresolve
    exact hcontinues.resolve?_eq hsettled hresolve
  · intro c hc id position hresolves
    have hmem := List.mem_filterMap.2 ⟨c, hc, hresolves⟩
    exact Heap.exists_get?_iff.2 (hreached.live id position hmem)
  · intro ref position hresolve
    exact hreached.classOf_ok hresolve
  · intro ref className hclass
    exact hcontinues.classOf_eq hsettled hclass
  · intro position hposition
    exact Heap.get?_eq_none_iff.2 (hcontinues.fresh position hposition)
  · intro a b hab
    obtain ⟨position, ha, hb⟩ := aliases_iff.1 hab
    exact aliases_iff.2 ⟨position, hb, ha⟩
  · intro a b c hab hbc
    obtain ⟨position, ha, hb⟩ := aliases_iff.1 hab
    obtain ⟨position', hb', hc⟩ := aliases_iff.1 hbc
    cases hb.symm.trans hb'
    exact aliases_iff.2 ⟨position, ha, hc⟩
  · intro ref
    rw [aliases_iff]
    simp
  · intro a b hab
    obtain ⟨position, ha, hb⟩ := aliases_iff.1 hab
    exact aliases_iff.2 ⟨position, hcontinues.positionOf?_eq hsettled ha,
      hcontinues.positionOf?_eq hsettled hb⟩

def twin (id : Nat) : SymbolicRef := ⟨id, "twin", "Root"⟩

/-- An object is made for the first reference, and the second is assumed to refer to it too. -/
def twinOperations : List (Engine × Operation) :=
  [.assumeExpands (twin 0) "Root", .assumeAliases (twin 1) 0].map
    (⟨none, .ample, .standard, .fixed false, .standard⟩, ·)

/-- The references are to be resolved in other ways, which is refused. -/
def untwineOperations : List (Engine × Operation) :=
  [.assumeNull (twin 0), .assumeExpands (twin 1) "Leaf"].map
    (⟨none, .ample, .standard, .fixed false, .standard⟩, ·)

theorem reached_twins :
    (reached (Exec.ladder .empty) none .ample twinOperations).aliases (.symbolic (twin 0))
      (.symbolic (twin 1)) ∧
    (reached (Exec.ladder .empty) none .ample (twinOperations ++ untwineOperations)).aliases
      (.symbolic (twin 0)) (.symbolic (twin 1)) := by
  have htwins : (reached (Exec.ladder .empty) none .ample twinOperations).aliases
      (.symbolic (twin 0)) (.symbolic (twin 1)) := by
    decide +kernel
  obtain ⟨-, -, -, -, -, -, -, -, -, -, hlater⟩ :=
    reached_resolutions (Exec.ladder .empty) none .ample twinOperations untwineOperations
  exact ⟨htwins, hlater _ _ htwins⟩

end State

end SymbolicBytecode

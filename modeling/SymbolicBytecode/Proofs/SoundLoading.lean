import Mathlib
import SymbolicBytecode.Proofs.Loadable
import SymbolicBytecode.Proofs.Readers

/-!
# Loading is sound and complete

Whatever comes of a request, the hierarchy has only grown by classes that found their supertypes
there. A request fails only for a class that is not loadable: if a class is asked for while it is
pending, then each pending class leads to it by way of its supertypes, and it is on a cycle.
-/
namespace SymbolicBytecode

open Relation (ReflTransGen TransGen)

namespace Request

variable {cp : Classpath} {h : Hierarchy} {name path : String} {bytes : Bytes} {c s : ClassFile}
  {need : Need} {rest : List Need} {l m : Loader}

/-- The class that is being loaded is pending and new, and what is not needed any more is there. -/
def Open (cp : Classpath) (l : Loader) : Request → Prop
  | load _ => True
  | derive name => name ∈ l.pending ∧ l.hierarchy.get? name = none
  | complete c needs => c.name ∈ l.pending ∧ l.hierarchy.get? c.name = none ∧
      cp.Provides c.name c ∧ ∃ met, c.needs = met ++ needs ∧ ∀ need ∈ met, l.hierarchy.Meets need

theorem open_derive (hget : l.hierarchy.get? name = none) : (derive name).Open cp (l.enter name) :=
  ⟨Finset.mem_insert_self _ _, hget⟩

namespace Open

theorem complete (hopen : (derive name).Open cp l) (hfind : cp.find name = .ok (path, bytes))
    (hdefine : Classpath.define name path bytes = .ok c) (e : Event) :
    (Request.complete c c.needs).Open cp (l.note e) := by
  have hprovides := Classpath.provides_of_define hfind hdefine
  obtain rfl := hprovides.name_eq
  exact ⟨hopen.1, hopen.2, hprovides, [], rfl, by simp⟩

theorem next (hopen : (Request.complete c (need :: rest)).Open cp l)
    (hload : cp.Answers (.load need.name) l (.ok s) m) (hkind : s.isInterface = need.isInterface)
    (hextends : cp.Extends l.hierarchy m.hierarchy) : (Request.complete c rest).Open cp m := by
  obtain ⟨hpending, hnew, hprovides, met, hneeds, hmet⟩ := hopen
  refine ⟨hload.pending_eq ▸ hpending, ?_, hprovides, met ++ [need], by simp [hneeds], ?_⟩
  · rw [hload.get?_of_pending hpending (.inl ⟨_, rfl⟩), hnew]
  · intro n hn
    rcases List.mem_append.1 hn with hn | hn
    · exact hextends.meets (hmet n hn)
    · obtain rfl := List.mem_singleton.1 hn
      exact ⟨s, hload.get?_of_ok rfl, hkind⟩

theorem tries (hopen : (Request.complete c (need :: rest)).Open cp l)
    (hextends : cp.Extends h l.hierarchy) : cp.Tries h c.name need.name := by
  obtain ⟨-, hnew, hprovides, met, hneeds, hmet⟩ := hopen
  exact ⟨hextends.get?_eq_none hnew, c, met, need, rest, hprovides, hneeds, rfl,
    fun n hn => hextends.attainable (hmet n hn)⟩

end Open

/-- The supertypes of a pending class lead to the class of the request. -/
def LedFrom (cp : Classpath) (h : Hierarchy) (pending : String) : Request → Prop
  | load name => TransGen (cp.Declares h) pending name
  | derive name => ReflTransGen (cp.Declares h) pending name
  | complete c _ => ReflTransGen (cp.Declares h) pending c.name

theorem ledFrom_enter (hled : ∀ p ∈ l.pending, (load name).LedFrom cp h p) :
    ∀ p ∈ (l.enter name).pending, (derive name).LedFrom cp h p := by
  intro p hp
  rcases Finset.mem_insert.1 hp with rfl | hp
  · exact .refl
  · exact TransGen.to_reflTransGen (hled p hp)

theorem Open.ledFrom (hopen : (Request.complete c (need :: rest)).Open cp l)
    (hextends : cp.Extends h l.hierarchy)
    (hled : ∀ p ∈ l.pending, (Request.complete c (need :: rest)).LedFrom cp h p) :
    ∀ p ∈ l.pending, (load need.name).LedFrom cp h p :=
  fun p hp => TransGen.tail' (hled p hp) (hopen.tries hextends).declares

/-- There is nothing in the files that speaks against the request. -/
def Feasible (cp : Classpath) (h : Hierarchy) : Request → Prop
  | load name => cp.Loadable h name
  | derive name => cp.Loadable h name
  | complete _ needs => ∀ need ∈ needs, cp.Attainable h need

end Request

namespace Classpath

variable {cp : Classpath} {h : Hierarchy} {q : Request} {r : Except LoadError ClassFile}
  {name : String} {c : ClassFile} {l m : Loader}

namespace Answers

open Request (open_derive)

theorem grows (ha : cp.Answers q l r m) (hopen : q.Open cp l) :
    cp.Extends l.hierarchy m.hierarchy := by
  induction ha with
  | load hget hpending hderive ih => exact ih (open_derive hget)
  | derive hfind hdefine hcomplete ih => exact ih (hopen.complete hfind hdefine _)
  | add =>
    obtain ⟨-, hnew, hprovides, met, hneeds, hmet⟩ := hopen
    rw [List.append_nil] at hneeds
    exact .add .refl hprovides hnew (hneeds ▸ hmet)
  | fails hload ih => exact ih trivial
  | refuses hload hkind ih => exact ih trivial
  | meets hload hkind hrest ih ihrest =>
    exact (ih trivial).trans (ihrest (hopen.next hload hkind (ih trivial)))
  | _ => exact .refl

/-- Only classes that were asked for on behalf of the requested one get into the hierarchy. -/
theorem tried (ha : cp.Answers q l r m) (hopen : q.Open cp l) (hextends : cp.Extends h l.hierarchy)
    (hget : m.hierarchy.get? name = some c) (hnew : l.hierarchy.get? name = none) :
    ReflTransGen (cp.Tries h) q.className name := by
  induction ha generalizing c with
  | load hnone hpending hderive ih => exact ih (open_derive hnone) hextends hget hnew
  | derive hfind hdefine hcomplete ih =>
    have hname := (parse_of_define hdefine).2
    have htried := ih (hopen.complete hfind hdefine _) hextends hget hnew
    rwa [Request.className, hname] at htried
  | add =>
    rw [Loader.add_hierarchy, Hierarchy.get?_add] at hget
    split at hget
    · next hname =>
      rw [hname]
      exact .refl
    · simp [hnew] at hget
  | fails hload ih => exact .head (hopen.tries hextends) (ih trivial hextends hget hnew)
  | refuses hload hkind ih => exact .head (hopen.tries hextends) (ih trivial hextends hget hnew)
  | @meets d s need rest r l m k hload hkind hrest ih ihrest =>
    have hgrows := hload.grows trivial
    cases hmiddle : m.hierarchy.get? name with
    | some d => exact .head (hopen.tries hextends) (ih trivial hextends hmiddle hnew)
    | none => exact ihrest (hopen.next hload hkind hgrows) (hextends.trans hgrows) hget hmiddle
  | _ => simp [hnew] at hget

/-- A class that is not what it has to be is of no use, however it is loaded. -/
theorem not_attainable {need : Need} (hload : cp.Answers (.load need.name) l (.ok c) m)
    (hextends : cp.Extends h l.hierarchy) (hkind : c.isInterface ≠ need.isInterface) :
    ¬cp.Attainable h need := by
  rintro ⟨-, s, hdenotes, hfits⟩
  have hfound := (hextends.trans (hload.grows trivial)).denotes (hload.get?_of_ok rfl)
  obtain rfl := hdenotes.unique hfound
  exact hkind hfits

/-- A request fails only for a reason in the files. -/
theorem infeasible (ha : cp.Answers q l r m) (hopen : q.Open cp l)
    (hextends : cp.Extends h l.hierarchy) (hled : ∀ p ∈ l.pending, q.LedFrom cp h p)
    {e : LoadError} (hr : r = .error e) : ¬q.Feasible cp h := by
  induction ha with
  | circular hget hpending => exact fun hloadable => hloadable.acyclic .refl (hled _ hpending)
  | load hget hpending hderive ih =>
    exact ih (open_derive hget) hextends (Request.ledFrom_enter hled) hr
  | missing hfind =>
    intro hloadable
    obtain ⟨c, hprovides, -⟩ := (loadable_iff (hextends.get?_eq_none hopen.2)).1 hloadable
    obtain ⟨path, bytes, hfound, -⟩ := hprovides.define
    simp [hfind] at hfound
  | undefined hfind hdefine =>
    intro hloadable
    obtain ⟨c, hprovides, -⟩ := (loadable_iff (hextends.get?_eq_none hopen.2)).1 hloadable
    obtain ⟨path, bytes, hfound, hdefined⟩ := hprovides.define
    cases hfind.symm.trans hfound
    simp [hdefine] at hdefined
  | derive hfind hdefine hcomplete ih =>
    have hprovides := provides_of_define hfind hdefine
    obtain rfl := hprovides.name_eq
    intro hloadable
    refine ih (hopen.complete hfind hdefine _) hextends hled hr fun need hneed => ?_
    exact hloadable.attainable (hextends.get?_eq_none hopen.2) hprovides hneed
  | fails hload ih =>
    intro hneeds
    exact ih trivial hextends (hopen.ledFrom hextends hled) hr (hneeds _ List.mem_cons_self).1
  | refuses hload hkind ih =>
    exact fun hneeds => hload.not_attainable hextends hkind (hneeds _ List.mem_cons_self)
  | meets hload hkind hrest ih ihrest =>
    intro hneeds
    have hgrows := hload.grows trivial
    refine ihrest (hopen.next hload hkind hgrows) (hextends.trans hgrows) ?_ hr
      (List.forall_mem_cons.1 hneeds).2
    rw [hload.pending_eq]
    exact hled
  | _ => cases hr

/-- A class is loaded if and only if it is loadable, whatever has been loaded before. -/
theorem ok_iff (ha : cp.Answers (.load name) l r m) (hextends : cp.Extends h l.hierarchy)
    (hled : ∀ p ∈ l.pending, TransGen (cp.Declares h) p name) :
    (∃ c, r = .ok c) ↔ cp.Loadable h name := by
  constructor
  · rintro ⟨c, hr⟩
    exact (hextends.trans (ha.grows trivial)).loadable (ha.get?_of_ok hr)
  · intro hloadable
    cases hr : r with
    | ok c => exact ⟨c, rfl⟩
    | error e => exact absurd hloadable (ha.infeasible trivial hextends hled hr)

end Answers

/-- **Loading keeps a hierarchy sound.** Whether a class could be loaded or not, the classes of the
hierarchy are still there. The new ones were defined by the files that are found under their names,
which were asked for on behalf of the requested class; each has its superclass, which is a class,
and its superinterfaces, which are interfaces, and supertypes come first in some order. A class that
was loaded is there, and the loader remembers the same pending classes as before. -/
theorem load_keeps_sound {cp : Classpath} {pending : List String} {name : String}
    {σ τ : LoadSession} {r : Except LoadError ClassFile}
    (hload : (cp.load pending name).apply σ = (r, τ)) :
    (∀ n c, σ.hierarchy.get? n = some c → τ.hierarchy.get? n = some c) ∧
    (∀ n c, σ.hierarchy.get? n = none → τ.hierarchy.get? n = some c →
      (∃ path bytes, cp.FirstFile n path bytes ∧ ClassFile.parse bytes = .ok c) ∧
      ReflTransGen (cp.Declares σ.hierarchy) name n ∧ c.name = n ∧ c.majorVersion ≤ 52 ∧
      (∀ s, c.superName = some s → ∃ d, τ.hierarchy.get? s = some d ∧ d.isInterface = false) ∧
      ∀ i ∈ c.interfaces, ∃ d, τ.hierarchy.get? i = some d ∧ d.isInterface = true) ∧
    (∃ added : List ClassFile, (added.map ClassFile.name).Nodup ∧
      (∀ c, c ∈ added ↔ σ.hierarchy.get? c.name = none ∧ τ.hierarchy.get? c.name = some c) ∧
      ∀ before c after, added = before ++ c :: after → ∀ s ∈ c.supertypes,
        σ.hierarchy.contains s ∨ ∃ d ∈ before, d.name = s) ∧
    (∀ c, r = .ok c → τ.hierarchy.get? name = some c) ∧
    ∀ r' l, cp.Answers (.load name) ⟨σ, pending.toFinset⟩ r' l ↔
      r' = r ∧ l = ⟨τ, pending.toFinset⟩ := by
  have hanswers := load_answers cp pending name σ
  rw [hload] at hanswers
  have hextends : cp.Extends σ.hierarchy τ.hierarchy := hanswers.grows trivial
  refine ⟨fun n c => hextends.get?_eq_some, fun n c hnew hget => ?_, hextends.exists_order,
    fun c hr => hanswers.get?_of_ok hr, fun r' l => ?_⟩
  · have htried := hanswers.tried trivial .refl hget hnew
    have hneeds (need : Need) (hneed : need ∈ c.needs) : τ.hierarchy.Meets need :=
      hextends.meets_needs hget hnew hneed
    obtain ⟨path, bytes, hfirst, hparse, hversion, hname⟩ :=
      ((hextends.denotes hget).resolve_left (by simp [hnew])).2
    refine ⟨⟨path, bytes, hfirst, hparse⟩, ReflTransGen.mono (fun _ _ => Tries.declares) _ _ htried,
      hname, hversion, fun s hs => ?_, fun i hi => ?_⟩
    · exact hneeds ⟨s, false⟩ (by simp [ClassFile.needs, hs])
    · exact hneeds ⟨i, true⟩ (by simp [ClassFile.needs, hi])
  · rw [answers_load_iff, hload]

/-- The class `B`, which extends `A` and implements `C`. -/
def twistedClass : Bytes :=
  [0xca, 0xfe, 0xba, 0xbe, 0, 0, 0, 52, 0, 7, 7, 0, 2, 1, 0, 1, 66, 7, 0, 4, 1, 0, 1, 65, 7, 0, 6,
    1, 0, 1, 67, 0, 33, 0, 1, 0, 3, 0, 1, 0, 5, 0, 0, 0, 0, 0, 0]

/-- The interface `C`, which extends itself. -/
def twistedInterface : Bytes :=
  [0xca, 0xfe, 0xba, 0xbe, 0, 0, 0, 52, 0, 5, 7, 0, 2, 1, 0, 1, 67, 7, 0, 4, 1, 0, 1, 65, 6, 1, 0,
    1, 0, 3, 0, 1, 0, 1, 0, 0, 0, 0, 0, 0]

/-- A classpath with one directory given twice. -/
def twisted : Classpath :=
  ⟨.ofList [("d/A.class", ClassFile.bare), ("d/B.class", twistedClass),
    ("d/C.class", twistedInterface)], ["d", "d"]⟩

/-- The class `B` cannot be loaded, because `C` cannot. Its superclass `A` has been loaded by
then. -/
theorem load_twisted :
    (∃ τ, (twisted.load ["D"] "B").apply ⟨.empty, []⟩ = (.error (.circularity "C"), τ)) ∧
    ∃ τ, τ.hierarchy.classes.keys = ["A"] ∧
      (∀ n c, τ.hierarchy.get? n = some c → c.name = n ∧ c.majorVersion ≤ 52) ∧
      twisted.Answers (.load "B") ⟨⟨.empty, []⟩, {"D"}⟩ (.error (.circularity "C")) ⟨τ, {"D"}⟩ := by
  have hfails : ((twisted.load ["D"] "B").apply ⟨.empty, []⟩).1 = .error (.circularity "C") := by
    decide +kernel
  have hload : (twisted.load ["D"] "B").apply ⟨.empty, []⟩ =
      (.error (.circularity "C"), ((twisted.load ["D"] "B").apply ⟨.empty, []⟩).2) :=
    Prod.ext hfails rfl
  obtain ⟨-, hadded, -, -, hanswers⟩ := load_keeps_sound hload
  refine ⟨⟨_, hload⟩, _, ?_, fun n c hget => ?_, (hanswers _ _).2 ⟨rfl, rfl⟩⟩
  · decide +kernel
  · obtain ⟨-, -, hname, hversion, -⟩ := hadded n c rfl hget
    exact ⟨hname, hversion⟩

/-- **Exactly the loadable classes are loaded.** A loader with nothing pending always comes to an
end, in one way only, and has loaded the class if and only if it is loadable. A class from which a
cycle of supertypes can be reached through classes that are not known is never loaded. -/
theorem load_ok_iff (cp : Classpath) (name : String) (σ : LoadSession) :
    (∀ r l, cp.Answers (.load name) ⟨σ, ∅⟩ r l ↔
      r = ((cp.load [] name).apply σ).1 ∧ l = ⟨((cp.load [] name).apply σ).2, ∅⟩) ∧
    ((∃ c, ((cp.load [] name).apply σ).1 = .ok c) ↔ cp.Loadable σ.hierarchy name) ∧
    ∀ n m, ReflTransGen (cp.Declares σ.hierarchy) n m →
      TransGen (cp.Declares σ.hierarchy) m m →
      ((cp.load [] name).apply σ).2.hierarchy.get? n = none := by
  have hanswers := load_answers cp [] name σ
  refine ⟨fun r l => @answers_load_iff cp r l [] name σ, hanswers.ok_iff .refl (by simp), ?_⟩
  intro n m hreach hcycle
  cases hget : ((cp.load [] name).apply σ).2.hierarchy.get? n with
  | none => rfl
  | some c => exact absurd hcycle (((hanswers.grows trivial).loadable hget).acyclic hreach)

/-- The class `A` can be loaded. The interface `C` declares itself, so that it is never loaded, and
neither is `B`. -/
theorem loadable_twisted :
    twisted.Loadable .empty "A" ∧ ¬twisted.Loadable .empty "B" ∧
    twisted.Declares .empty "B" "C" ∧ twisted.Declares .empty "C" "C" ∧
    ((twisted.load [] "B").apply ⟨.empty, []⟩).2.hierarchy.get? "B" = none := by
  have hdeclares (name other path : String) (bytes : Bytes)
      (hfind : twisted.find name = .ok (path, bytes))
      (hother : (ClassFile.parse bytes).toOption.any fun c => c.supertypes.contains other) :
      twisted.Declares .empty name other := by
    cases hparse : ClassFile.parse bytes with
    | error e => simp [hparse, Except.toOption] at hother
    | ok c =>
      refine ⟨rfl, path, bytes, c, find_ok_iff.1 hfind, hparse, ?_⟩
      simpa [hparse, Except.toOption] using hother
  have hB := hdeclares "B" "C" "d/B.class" twistedClass (by decide +kernel) (by decide +kernel)
  have hC := hdeclares "C" "C" "d/C.class" twistedInterface (by decide +kernel) (by decide +kernel)
  have hloads : ((twisted.load [] "A").apply ⟨.empty, []⟩).1.toOption.isSome := by decide +kernel
  have hfails : ((twisted.load [] "B").apply ⟨.empty, []⟩).1 = .error (.circularity "C") := by
    decide +kernel
  obtain ⟨-, hloadable, -⟩ := load_ok_iff twisted "A" ⟨.empty, []⟩
  obtain ⟨-, hloadable', hcycle⟩ := load_ok_iff twisted "B" ⟨.empty, []⟩
  refine ⟨hloadable.1 ?_, fun h => ?_, hB, hC, hcycle "B" "C" (.single hB) (.single hC)⟩
  · cases hA : ((twisted.load [] "A").apply ⟨.empty, []⟩).1 with
    | error e => simp [hA, Except.toOption] at hloads
    | ok c => exact ⟨c, rfl⟩
  · obtain ⟨c, hc⟩ := hloadable'.2 h
    cases hfails.symm.trans hc

end Classpath

end SymbolicBytecode

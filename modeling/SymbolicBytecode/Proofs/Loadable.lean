import Mathlib
import SymbolicBytecode.Proofs.Loader

/-!
# Loadable classes

Which classes can be loaded into a hierarchy depends on the files of a classpath and on the
hierarchy alone, not on the order of the work: `Classpath.Loadable` has the classes that are known
and those whose files are in order and whose supertypes are loadable in turn. From a loadable class
no cycle of supertypes can be reached. A hierarchy that grows class by class, as `Classpath.Extends`
has it, gets loadable classes only, and the same classes stay loadable.
-/
namespace SymbolicBytecode

open Relation (ReflTransGen TransGen)

/-- The class is there, and is what it has to be. -/
def Hierarchy.Meets (h : Hierarchy) (need : Need) : Prop :=
  ∃ c, h.get? need.name = some c ∧ c.isInterface = need.isInterface

namespace Classpath

variable {cp : Classpath} {h k k' : Hierarchy} {name other path : String} {bytes : Bytes}
  {c d : ClassFile} {need : Need}

section Files

/-- The first of the files for a class that can be read. -/
def FirstFile (cp : Classpath) (name path : String) (bytes : Bytes) : Prop :=
  ∃ before after, cp.candidates name = before ++ path :: after ∧
    (∀ p ∈ before, ∀ b, cp.files.read p ≠ .ok b) ∧ cp.files.read path = .ok bytes

theorem firstReadable_ok_iff {files : Files} {reason : Option FileError} {paths : List String} :
    firstReadable files reason paths = .ok (path, bytes) ↔
      ∃ before after, paths = before ++ path :: after ∧ (∀ p ∈ before, ∀ b, files.read p ≠ .ok b) ∧
        files.read path = .ok bytes := by
  induction paths generalizing reason with
  | nil => simp [firstReadable]
  | cons first rest ih =>
    rw [firstReadable]
    constructor
    · intro hfound
      split at hfound
      · next b hread =>
        cases hfound
        exact ⟨[], rest, rfl, by simp, hread⟩
      · next e hread =>
        obtain ⟨before, after, rfl, hbefore, hpath⟩ := ih.1 hfound
        exact ⟨first :: before, after, rfl, List.forall_mem_cons.2 ⟨by simp [hread], hbefore⟩,
          hpath⟩
    · rintro ⟨_ | ⟨p, before⟩, after, hpaths, hbefore, hpath⟩
      · cases hpaths
        rw [hpath]
      · cases hpaths
        obtain ⟨hfirst, hbefore⟩ := List.forall_mem_cons.1 hbefore
        split
        · next b hread => exact absurd hread (hfirst b)
        · exact ih.2 ⟨before, after, rfl, hbefore, hpath⟩

theorem find_ok_iff : cp.find name = .ok (path, bytes) ↔ cp.FirstFile name path bytes :=
  firstReadable_ok_iff

theorem define_ok_iff : define name path bytes = .ok c ↔
    ClassFile.parse bytes = .ok c ∧ c.majorVersion ≤ 52 ∧ c.name = name := by
  unfold define
  split
  · next hparse => simp [hparse]
  · next d hparse =>
    rw [hparse, Except.ok.injEq, show ClassOutline.currentMajorVersion = 52 from rfl]
    split
    · next hversion =>
      refine ⟨by simp, ?_⟩
      rintro ⟨rfl, hle, -⟩
      exact absurd hversion (UInt16.not_lt.2 hle)
    next hversion =>
    split
    · next hname =>
      refine ⟨by simp, ?_⟩
      rintro ⟨rfl, -, hsame⟩
      exact absurd hsame hname
    · next hname =>
      rw [Except.ok.injEq]
      constructor
      · rintro rfl
        exact ⟨rfl, UInt16.not_lt.1 hversion, not_not.1 hname⟩
      · exact And.left

/-- The first file for a class is in order, and this is the class that it defines. -/
def Provides (cp : Classpath) (name : String) (c : ClassFile) : Prop :=
  ∃ path bytes, cp.FirstFile name path bytes ∧ ClassFile.parse bytes = .ok c ∧
    c.majorVersion ≤ 52 ∧ c.name = name

theorem provides_of_define (hfind : cp.find name = .ok (path, bytes))
    (hdefine : define name path bytes = .ok c) : cp.Provides name c :=
  ⟨path, bytes, find_ok_iff.1 hfind, define_ok_iff.1 hdefine⟩

theorem Provides.define (h : cp.Provides name c) :
    ∃ path bytes, cp.find name = .ok (path, bytes) ∧ define name path bytes = .ok c := by
  obtain ⟨path, bytes, hfirst, hdefined⟩ := h
  exact ⟨path, bytes, find_ok_iff.2 hfirst, define_ok_iff.2 hdefined⟩

theorem Provides.name_eq (h : cp.Provides name c) : c.name = name := by
  obtain ⟨path, bytes, -, -, -, hname⟩ := h
  exact hname

theorem Provides.unique (h : cp.Provides name c) (h' : cp.Provides name d) : c = d := by
  obtain ⟨path, bytes, hfind, hdefine⟩ := h.define
  obtain ⟨path', bytes', hfind', hdefine'⟩ := h'.define
  cases hfind.symm.trans hfind'
  exact Except.ok.inj (hdefine.symm.trans hdefine')

end Files

section Denotations

/-- The class of a name, whether it is known or still has to be loaded. -/
def Denotes (cp : Classpath) (h : Hierarchy) (name : String) (c : ClassFile) : Prop :=
  h.get? name = some c ∨ h.get? name = none ∧ cp.Provides name c

theorem Denotes.unique (hc : cp.Denotes h name c) (hd : cp.Denotes h name d) : c = d := by
  rcases hc with hc | ⟨hnone, hc⟩ <;> rcases hd with hd | ⟨hnone', hd⟩
  · exact Option.some.inj (hc.symm.trans hd)
  · simp_all
  · simp_all
  · exact hc.unique hd

/-- The least set of classes with those that are known and those whose first file is in order and
whose supertypes are in the set, the superclass being a class and the superinterfaces interfaces. -/
inductive Loadable (cp : Classpath) (h : Hierarchy) : String → Prop
  | known {name : String} {c : ClassFile} (hget : h.get? name = some c) : Loadable cp h name
  | provided {name : String} {c : ClassFile} (hprovides : cp.Provides name c)
      (hneeds : ∀ need ∈ c.needs, Loadable cp h need.name)
      (hkinds : ∀ need ∈ c.needs, ∃ s, cp.Denotes h need.name s ∧
        s.isInterface = need.isInterface) : Loadable cp h name

/-- The class can be loaded, and is what it has to be. -/
def Attainable (cp : Classpath) (h : Hierarchy) (need : Need) : Prop :=
  cp.Loadable h need.name ∧ ∃ s, cp.Denotes h need.name s ∧ s.isInterface = need.isInterface

theorem loadable_iff (hnew : h.get? name = none) :
    cp.Loadable h name ↔ ∃ c, cp.Provides name c ∧ ∀ need ∈ c.needs, cp.Attainable h need := by
  constructor
  · intro hloadable
    cases hloadable with
    | known hget => simp [hnew] at hget
    | provided hprovides hneeds hkinds =>
      exact ⟨_, hprovides, fun need hneed => ⟨hneeds need hneed, hkinds need hneed⟩⟩
  · rintro ⟨c, hprovides, hneeds⟩
    exact .provided hprovides (fun need hneed => (hneeds need hneed).1)
      fun need hneed => (hneeds need hneed).2

theorem Loadable.attainable (hloadable : cp.Loadable h name) (hnew : h.get? name = none)
    (hprovides : cp.Provides name c) (hneed : need ∈ c.needs) : cp.Attainable h need := by
  obtain ⟨d, hd, hneeds⟩ := (loadable_iff hnew).1 hloadable
  obtain rfl := hprovides.unique hd
  exact hneeds need hneed

/-- The first file for a class that is not known declares this supertype. -/
def Declares (cp : Classpath) (h : Hierarchy) (name other : String) : Prop :=
  h.get? name = none ∧ ∃ path bytes c, cp.FirstFile name path bytes ∧
    ClassFile.parse bytes = .ok c ∧ other ∈ c.supertypes

theorem Provides.declares (hprovides : cp.Provides name c) (hnew : h.get? name = none)
    (hneed : need ∈ c.needs) : cp.Declares h name need.name := by
  obtain ⟨path, bytes, hfirst, hparse, -, -⟩ := hprovides
  refine ⟨hnew, path, bytes, c, hfirst, hparse, ?_⟩
  rw [← ClassFile.map_name_needs]
  exact List.mem_map_of_mem hneed

theorem Declares.exists_need (hdeclares : cp.Declares h name other)
    (hprovides : cp.Provides name c) : ∃ need ∈ c.needs, need.name = other := by
  obtain ⟨-, path, bytes, d, hfirst, hparse, hmem⟩ := hdeclares
  obtain ⟨path', bytes', hfirst', hparse', -⟩ := hprovides
  cases (find_ok_iff.2 hfirst).symm.trans (find_ok_iff.2 hfirst')
  cases hparse.symm.trans hparse'
  rwa [← ClassFile.map_name_needs, List.mem_map] at hmem

/-- While a class is loaded, this supertype is asked for: those before it can be had. -/
def Tries (cp : Classpath) (h : Hierarchy) (name other : String) : Prop :=
  h.get? name = none ∧ ∃ c before need after, cp.Provides name c ∧
    c.needs = before ++ need :: after ∧ need.name = other ∧ ∀ n ∈ before, cp.Attainable h n

theorem Tries.declares (htries : cp.Tries h name other) : cp.Declares h name other := by
  obtain ⟨hnew, c, before, need, after, hprovides, hneeds, rfl, -⟩ := htries
  exact hprovides.declares hnew (by simp [hneeds])

/-- From a loadable class no cycle of supertypes is reached through classes that are not known. -/
theorem Loadable.acyclic (hloadable : cp.Loadable h name)
    (hreach : ReflTransGen (cp.Declares h) name other) :
    ¬TransGen (cp.Declares h) other other := by
  induction hloadable generalizing other with
  | @known name c hget =>
    have hend {n : String} : ¬cp.Declares h name n := by
      rintro ⟨hnew, -⟩
      simp [hget] at hnew
    rcases hreach.cases_head with rfl | ⟨n, hfirst, -⟩
    · intro hcycle
      obtain ⟨n, hfirst, -⟩ := TransGen.head'_iff.1 hcycle
      exact hend hfirst
    · exact absurd hfirst hend
  | @provided name c hprovides hneeds hkinds ih =>
    have hnext {n m : String} (hfirst : cp.Declares h name n)
        (hrest : ReflTransGen (cp.Declares h) n m) : ¬TransGen (cp.Declares h) m m := by
      obtain ⟨need, hneed, rfl⟩ := hfirst.exists_need hprovides
      exact ih need hneed hrest
    rcases hreach.cases_head with rfl | ⟨n, hfirst, hrest⟩
    · intro hcycle
      obtain ⟨n, hfirst, hrest⟩ := TransGen.head'_iff.1 hcycle
      exact hnext hfirst hrest hcycle
    · exact hnext hfirst hrest

end Denotations

section Growth

/-- The hierarchy has got some classes more, one after the other. Each has a file that is in order,
was new, and found its supertypes there. -/
inductive Extends (cp : Classpath) (h : Hierarchy) : Hierarchy → Prop
  | refl : Extends cp h h
  | add {k : Hierarchy} {c : ClassFile} (hextends : Extends cp h k)
      (hprovides : cp.Provides c.name c) (hnew : k.get? c.name = none)
      (hneeds : ∀ need ∈ c.needs, k.Meets need) : Extends cp h (k.add c)

namespace Extends

theorem trans (hhk : cp.Extends h k) (hkk : cp.Extends k k') : cp.Extends h k' := by
  induction hkk with
  | refl => exact hhk
  | add _ hprovides hnew hneeds ih => exact ih.add hprovides hnew hneeds

theorem get?_eq_some (hextends : cp.Extends h k) (hget : h.get? name = some c) :
    k.get? name = some c := by
  induction hextends with
  | refl => exact hget
  | @add k d _ _ hnew _ ih =>
    have hne : name ≠ d.name := by
      rintro rfl
      simp [hnew] at ih
    rw [Hierarchy.get?_add, if_neg hne]
    exact ih

theorem get?_eq_none (hextends : cp.Extends h k) (hget : k.get? name = none) :
    h.get? name = none := by
  cases hbefore : h.get? name with
  | none => rfl
  | some c => simp [hextends.get?_eq_some hbefore] at hget

theorem meets (hextends : cp.Extends h k) (hmeets : h.Meets need) : k.Meets need := by
  obtain ⟨s, hget, hkind⟩ := hmeets
  exact ⟨s, hextends.get?_eq_some hget, hkind⟩

theorem denotes (hextends : cp.Extends h k) (hget : k.get? name = some c) :
    cp.Denotes h name c := by
  induction hextends with
  | refl => exact .inl hget
  | @add k d hextends hprovides hnew _ ih =>
    rw [Hierarchy.get?_add] at hget
    split at hget
    · next hname =>
      cases hget
      subst hname
      exact .inr ⟨hextends.get?_eq_none hnew, hprovides⟩
    · exact ih hget

/-- A class that was added has its supertypes next to it. -/
theorem meets_needs (hextends : cp.Extends h k) (hget : k.get? name = some c)
    (hbefore : h.get? name = none) (hneed : need ∈ c.needs) : k.Meets need := by
  induction hextends with
  | refl => simp [hget] at hbefore
  | @add k d hextends hprovides hnew hneeds ih =>
    have hadd : cp.Extends k (k.add d) := .add .refl hprovides hnew hneeds
    rw [Hierarchy.get?_add] at hget
    split at hget
    · cases hget
      exact hadd.meets (hneeds need hneed)
    · exact hadd.meets (ih hget)

theorem loadable (hextends : cp.Extends h k) (hget : k.get? name = some c) :
    cp.Loadable h name := by
  induction hextends generalizing name c with
  | refl => exact .known hget
  | @add k d hextends hprovides hnew hneeds ih =>
    rw [Hierarchy.get?_add] at hget
    split at hget
    · next hname =>
      subst hname
      refine .provided hprovides (fun need hneed => ?_) fun need hneed => ?_
      all_goals obtain ⟨s, hs, hkind⟩ := hneeds need hneed
      · exact ih hs
      · exact ⟨s, hextends.denotes hs, hkind⟩
    · exact ih hget

theorem attainable (hextends : cp.Extends h k) (hmeets : k.Meets need) :
    cp.Attainable h need := by
  obtain ⟨s, hget, hkind⟩ := hmeets
  exact ⟨hextends.loadable hget, s, hextends.denotes hget, hkind⟩

/-- The classes that were added can be put in an order in which supertypes come first. -/
theorem exists_order (hextends : cp.Extends h k) :
    ∃ added : List ClassFile, (added.map ClassFile.name).Nodup ∧
      (∀ c, c ∈ added ↔ h.get? c.name = none ∧ k.get? c.name = some c) ∧
      ∀ before c after, added = before ++ c :: after → ∀ s ∈ c.supertypes,
        h.contains s ∨ ∃ d ∈ before, d.name = s := by
  induction hextends with
  | refl =>
    refine ⟨[], List.nodup_nil, fun c => ?_, by simp⟩
    simp only [List.not_mem_nil, false_iff, not_and]
    intro hnone hsome
    simp [hnone] at hsome
  | @add k d hextends hprovides hnew hneeds ih =>
    obtain ⟨added, hnodup, hadded, horder⟩ := ih
    have hfresh : ∀ c ∈ added, c.name ≠ d.name := by
      intro c hc hname
      obtain ⟨-, hget⟩ := (hadded c).1 hc
      simp [hname, hnew] at hget
    refine ⟨added ++ [d], ?_, fun c => ?_, fun before c after hsplit s hs => ?_⟩
    · rw [List.map_append, List.nodup_append]
      refine ⟨hnodup, by simp, ?_⟩
      simpa using hfresh
    · rw [List.mem_append, List.mem_singleton, hadded, Hierarchy.get?_add]
      constructor
      · rintro (hc | rfl)
        · rw [if_neg (hfresh c ((hadded c).2 hc))]
          exact hc
        · exact ⟨hextends.get?_eq_none hnew, if_pos rfl⟩
      · rintro ⟨hnone, hget⟩
        split at hget
        · exact .inr (Option.some.inj hget).symm
        · exact .inl ⟨hnone, hget⟩
    · rcases List.eq_nil_or_concat after with rfl | ⟨after, last, rfl⟩
      · obtain ⟨rfl, hlast⟩ := List.append_inj' hsplit rfl
        cases hlast
        rw [← ClassFile.map_name_needs, List.mem_map] at hs
        obtain ⟨need, hneed, rfl⟩ := hs
        obtain ⟨e, hget, -⟩ := hneeds need hneed
        cases hbefore : h.get? need.name with
        | some e => exact .inl (Option.isSome_iff_exists.2 ⟨e, hbefore⟩)
        | none =>
          have hname : e.name = need.name := k.named _ _ hget
          refine .inr ⟨e, (hadded e).2 ⟨hname ▸ hbefore, hname ▸ hget⟩, hname⟩
      · rw [List.concat_eq_append, ← List.cons_append, ← List.append_assoc] at hsplit
        obtain ⟨rfl, -⟩ := List.append_inj' hsplit rfl
        exact horder before c after rfl s hs

end Extends

end Growth

end Classpath

end SymbolicBytecode

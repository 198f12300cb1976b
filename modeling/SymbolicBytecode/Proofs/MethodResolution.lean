import Mathlib
import SymbolicBytecode.Proofs.Superclasses

/-!
# Method resolution

What a reference may be resolved to, said without the search that finds it. A class provides the
methods that its superclasses declare; an interface its own and the public ones of the root class. A
method that is not provided so may be inherited from a superinterface. Among several, those count
that no other is more specific than, and on a hierarchy without circles there is always such a one.
The search finds a method if and only if there is one, and it finds the right one.
-/
namespace SymbolicBytecode.Hierarchy

open Relation (ReflTransGen TransGen)

variable {h : Hierarchy} {s : Signature} {d e : Declaration}

/-- A known superinterface of a class, direct or inherited. -/
structure Superinterface (h : Hierarchy) (name : String) (c : ClassFile) : Prop where
  known : h.get? c.name = some c
  isInterface : c.isInterface
  above : TransGen h.Inherits name c.name

theorem mem_superinterfaces_iff {name : String} {c : ClassFile} :
    c ∈ h.superinterfaces name ↔ h.Superinterface name c ∧ c.name ≠ name := by
  constructor
  · intro hc
    obtain ⟨n, hn, hget⟩ := List.mem_filterMap.1 hc
    obtain ⟨hreached, hne⟩ := List.mem_filter.1 hn
    obtain ⟨hget, hinterface⟩ := Option.filter_eq_some_iff.1 hget
    obtain rfl := name_of_get? hget
    have hne : c.name ≠ name := by simpa using hne
    have habove := Relation.reflTransGen_iff_eq_or_transGen.1 (mem_reached_iff.1 hreached)
    exact ⟨⟨hget, hinterface, habove.resolve_left hne⟩, hne⟩
  · rintro ⟨⟨hget, hinterface, habove⟩, hne⟩
    refine List.mem_filterMap.2 ⟨c.name, List.mem_filter.2 ⟨?_, by simpa using hne⟩, ?_⟩
    · exact mem_reached_iff.2 habove.to_reflTransGen
    · exact Option.filter_eq_some_iff.2 ⟨hget, hinterface⟩

/-- The superinterface passes its method on: it is neither private nor static. -/
structure Inheritable (h : Hierarchy) (s : Signature) (d : Declaration) : Prop where
  owner : h.Superinterface s.className d.owner
  declared : d.owner.method? s.name s.descriptor = some d.method
  notPrivate : ¬d.method.accessFlags.isPrivate
  notStatic : ¬d.method.accessFlags.isStatic

theorem mem_inheritable_iff :
    d ∈ h.inheritable s.className s.name s.descriptor ↔
      h.Inheritable s d ∧ d.owner.name ≠ s.className := by
  constructor
  · intro hd
    obtain ⟨c, hc, hdeclared⟩ := List.mem_filterMap.1 hd
    obtain ⟨m, hm, rfl⟩ := Option.map_eq_some_iff.1 hdeclared
    obtain ⟨hm, hflags⟩ := Option.filter_eq_some_iff.1 hm
    obtain ⟨hsuper, hne⟩ := mem_superinterfaces_iff.1 hc
    simp only [Bool.and_eq_true, Bool.not_eq_true'] at hflags
    exact ⟨⟨hsuper, hm, by simp [hflags.1], by simp [hflags.2]⟩, hne⟩
  · rintro ⟨⟨hsuper, hm, hprivate, hstatic⟩, hne⟩
    refine List.mem_filterMap.2 ⟨d.owner, mem_superinterfaces_iff.2 ⟨hsuper, hne⟩, ?_⟩
    simp [hm, hprivate, hstatic]

theorem mem_maximallySpecific_iff {className name descriptor : String} :
    d ∈ h.maximallySpecific className name descriptor ↔
      d ∈ h.inheritable className name descriptor ∧
        ∀ e ∈ h.inheritable className name descriptor, e.owner.name ≠ d.owner.name →
          ¬h.isSubclass e.owner.name d.owner.name := by
  simp [maximallySpecific]

theorem nodup_maximallySpecific (h : Hierarchy) (className name descriptor : String) :
    (h.maximallySpecific className name descriptor).Nodup := by
  have hsuper : (h.superinterfaces className).Nodup := by
    refine ((nodup_walk List.nodup_nil).filter _).filterMap fun n n' c hn hn' => ?_
    have hget := (Option.filter_eq_some_iff.1 hn).1
    have hget' := (Option.filter_eq_some_iff.1 hn').1
    exact (name_of_get? hget).symm.trans (name_of_get? hget')
  refine (hsuper.filterMap fun c c' d hd hd' => ?_).filter _
  obtain ⟨m, -, rfl⟩ := Option.map_eq_some_iff.1 hd
  obtain ⟨m', -, heq⟩ := Option.map_eq_some_iff.1 hd'
  exact (congrArg Declaration.owner heq).symm

/-- Supertypes are ordered: declarations never lead in a circle, no name is that of an array class,
and the root class is known and not an interface. -/
structure Ordered (h : Hierarchy) : Prop where
  acyclic : ∀ name, ¬TransGen h.Inherits name name
  names : ∀ name c, h.get? name = some c → ¬IsArrayName name
  root : ∃ c, h.get? objectClass = some c ∧ ¬c.isInterface

/-- No other inheritable declaration is in an interface below this one. -/
structure MostSpecific (h : Hierarchy) (s : Signature) (d : Declaration) : Prop extends
    h.Inheritable s d where
  minimal : ∀ e, h.Inheritable s e → ¬TransGen h.Inherits e.owner.name d.owner.name

namespace Ordered

theorem mem_inheritable_iff (hh : h.Ordered) :
    d ∈ h.inheritable s.className s.name s.descriptor ↔ h.Inheritable s d := by
  rw [Hierarchy.mem_inheritable_iff, and_iff_left_iff_imp]
  intro hd heq
  exact hh.acyclic s.className (heq ▸ hd.owner.above)

/-- A hierarchy is ordered if each class has a higher rank than its supertypes. -/
theorem of_rank (rank : String → ℕ)
    (hrank : ∀ entry ∈ h.classes.entries, ∀ name ∈ entry.2.supertypes, rank name < rank entry.1)
    (hnames : ∀ entry ∈ h.classes.entries, ¬IsArrayName entry.1)
    (hroot : ∃ c, h.get? objectClass = some c ∧ ¬c.isInterface) : h.Ordered := by
  have hstep {name other : String} (hinherits : h.Inherits name other) :
      rank other < rank name := by
    obtain ⟨c, hget, hother⟩ := hinherits
    exact hrank (name, c) ((Table.mem_entries_iff _ _ _).2 hget) other hother
  have hsteps {name other : String} (hbelow : TransGen h.Inherits name other) :
      rank other < rank name := by
    induction hbelow with
    | single hinherits => exact hstep hinherits
    | tail _ hinherits ih => exact (hstep hinherits).trans ih
  exact ⟨fun name hcycle => (hsteps hcycle).false,
    fun name c hget => hnames (name, c) ((Table.mem_entries_iff _ _ _).2 hget), hroot⟩

/-- The two searches agree: being found below an interface and being below it by declarations. -/
theorem isSubclass_iff_below (hh : h.Ordered) {c : ClassFile} {name : String}
    (hname : ¬IsArrayName name) (hget : h.get? c.name = some c) (hinterface : c.isInterface)
    (hne : name ≠ c.name) : h.isSubclass name c.name ↔ TransGen h.Inherits name c.name := by
  obtain ⟨object, hobject, hclass⟩ := hh.root
  have hother : c.name ≠ objectClass := by
    intro heq
    rw [heq, hobject] at hget
    cases hget
    exact hclass hinterface
  rw [isSubclass_iff hname, or_iff_right hother, Relation.reflTransGen_iff_eq_or_transGen,
    or_iff_right hne.symm]

theorem mem_maximallySpecific_iff (hh : h.Ordered) :
    d ∈ h.maximallySpecific s.className s.name s.descriptor ↔ h.MostSpecific s d := by
  simp only [Hierarchy.mem_maximallySpecific_iff, hh.mem_inheritable_iff]
  constructor
  · rintro ⟨hd, hminimal⟩
    refine ⟨hd, fun e he hbelow => ?_⟩
    have hne : e.owner.name ≠ d.owner.name := by
      intro heq
      exact hh.acyclic d.owner.name (heq ▸ hbelow)
    refine hminimal e he hne ((hh.isSubclass_iff_below ?_ hd.owner.known hd.owner.isInterface
      hne).2 hbelow)
    exact hh.names _ _ he.owner.known
  · rintro ⟨hd, hminimal⟩
    refine ⟨hd, fun e he hne hsubclass => hminimal e he ?_⟩
    exact (hh.isSubclass_iff_below (hh.names _ _ he.owner.known) hd.owner.known
      hd.owner.isInterface hne).1 hsubclass

/-- There are finitely many candidates and no circles, so one of them is most specific. -/
theorem exists_mostSpecific (hh : h.Ordered) (hd : h.Inheritable s d) :
    ∃ e, h.MostSpecific s e := by
  let Candidate := { e // e ∈ h.inheritable s.className s.name s.descriptor }
  let below : Candidate → Candidate → Prop :=
    fun e e' => TransGen h.Inherits e.1.owner.name e'.1.owner.name
  have htrans : IsTrans Candidate below := ⟨fun _ _ _ => TransGen.trans⟩
  have hirrefl : Std.Irrefl below := ⟨fun e => hh.acyclic e.1.owner.name⟩
  have hwf : WellFounded below := Finite.wellFounded_of_trans_of_irrefl below
  obtain ⟨⟨e, he⟩, -, hminimal⟩ :=
    hwf.has_min Set.univ ⟨⟨d, hh.mem_inheritable_iff.2 hd⟩, trivial⟩
  refine ⟨e, hh.mem_inheritable_iff.1 he, fun e' he' hbelow => ?_⟩
  exact hminimal ⟨e', hh.mem_inheritable_iff.2 he'⟩ trivial hbelow

end Ordered

/-- The rules of access to a method: a private one is for its own class, a protected one also for
subclasses in other packages, and one that is public for all. -/
def Accessible (h : Hierarchy) (accessor : String) (d : Declaration) : Prop :=
  d.method.accessFlags.isPublic ∨
  (d.method.accessFlags.isPrivate ∧ accessor = d.owner.name) ∨
  (¬d.method.accessFlags.isPrivate ∧
    (packageOf accessor = d.owner.package ∨
      d.method.accessFlags.isProtected ∧ h.isSubclass accessor d.owner.name))

theorem isAccessible_iff {accessor : String} :
    h.isAccessible accessor d ↔ h.Accessible accessor d := by
  unfold isAccessible Accessible
  dsimp only
  split
  · simp_all
  · split
    · simp_all
    · split <;> simp_all

/-- The methods that a reference finds without superinterfaces: all that the superclasses of a
class declare; of an interface its own, and the public instance methods of the root class. -/
inductive Provides (h : Hierarchy) (s : Signature) : Bool → Declaration → Prop
  | superclass {chain : List ClassFile} {d : Declaration}
      (hchain : h.superclassChain s.className = .ok chain) (howner : d.owner ∈ chain)
      (hdeclared : d.owner.method? s.name s.descriptor = some d.method) : Provides h s false d
  | interface {d : Declaration} (howner : h.get? s.className = some d.owner)
      (hdeclared : d.owner.method? s.name s.descriptor = some d.method) : Provides h s true d
  | root {d : Declaration} (howner : h.get? objectClass = some d.owner)
      (hdeclared : d.owner.method? s.name s.descriptor = some d.method)
      (hpublic : d.method.accessFlags.isPublic) (hinstance : ¬d.method.accessFlags.isStatic) :
      Provides h s true d

/-- What a reference is to be resolved to. Among the superclasses the first declaration counts. What
an interface declares itself comes before the root class, and superinterfaces come last: of these a
most specific one counts, with a body if there is one with a body. -/
inductive Chosen (h : Hierarchy) (s : Signature) : Bool → Declaration → Prop
  | superclass {chain : List ClassFile} {d : Declaration}
      (hchain : h.superclassChain s.className = .ok chain)
      (hfirst : FirstOn chain s.name s.descriptor (fun _ => True) d) : Chosen h s false d
  | interface {d : Declaration} (howner : h.get? s.className = some d.owner)
      (hdeclared : d.owner.method? s.name s.descriptor = some d.method) : Chosen h s true d
  | root {c : ClassFile} {d : Declaration} (hget : h.get? s.className = some c)
      (hnone : c.method? s.name s.descriptor = none) (howner : h.get? objectClass = some d.owner)
      (hdeclared : d.owner.method? s.name s.descriptor = some d.method)
      (hpublic : d.method.accessFlags.isPublic) (hinstance : ¬d.method.accessFlags.isStatic) :
      Chosen h s true d
  | inherited {isInterface : Bool} {d : Declaration} (hnone : ∀ e, ¬h.Provides s isInterface e)
      (hd : h.MostSpecific s d)
      (hbody : d.method.accessFlags.isAbstract →
        ∀ e, h.MostSpecific s e → e.method.accessFlags.isAbstract) : Chosen h s isInterface d

theorem preferredDefault_eq_none_iff {candidates : List Declaration} :
    preferredDefault candidates = none ↔ candidates = [] := by
  cases candidates <;> simp [preferredDefault]

/-- A method without a body is only taken if no other has one. -/
theorem isAbstract_of_preferredDefault {candidates : List Declaration}
    (hd : preferredDefault candidates = some d) (habstract : d.method.accessFlags.isAbstract)
    (he : e ∈ candidates) : e.method.accessFlags.isAbstract := by
  rcases Option.or_eq_some_iff.1 hd with hfind | ⟨hnone, -⟩
  · have hbody := List.find?_some hfind
    simp [habstract] at hbody
  · simpa using List.find?_eq_none.1 hnone e he

section Resolving

variable {accessor : String} {isInterface : Bool} {referenced : ClassFile}
  {chain : List ClassFile} {found : Option Declaration}

theorem resolveMethod_of_findInClass (hget : h.get? s.className = some referenced)
    (hkind : referenced.isInterface = isInterface)
    (hplain : referenced.polymorphicMethod? s.name = none)
    (hfound : h.findInClass referenced s isInterface = .ok found) :
    h.resolveMethod accessor s isInterface =
      match found.or (preferredDefault (h.maximallySpecific s.className s.name s.descriptor)) with
      | none => .error (.methodNotFound s)
      | some d =>
        if h.isAccessible accessor d then .ok ⟨s.inClass d.owner.name, d.method.accessFlags, false⟩
        else .error (.methodNotAccessible (s.inClass d.owner.name)) := by
  simp only [resolveMethod, find_ok_iff.2 hget, hkind, hplain, hfound, bind, Except.bind, ite_self,
    ne_eq, not_true_eq_false, if_false]
  rfl

theorem not_provides_iff (ha : Ascent h s.className chain) :
    (∀ d, ¬h.Provides s false d) ↔ ∀ c ∈ chain, c.method? s.name s.descriptor = none := by
  constructor
  · intro hnone c hc
    rw [Option.eq_none_iff_forall_ne_some]
    exact fun m hm => hnone ⟨c, m⟩ (.superclass (superclassChain_ok_iff.2 ha) hc hm)
  · rintro hnone d ⟨hchain, howner, hdeclared⟩
    obtain rfl := ha.unique (superclassChain_ok_iff.1 hchain)
    simp [hnone d.owner howner] at hdeclared

theorem findInClass_superclasses (hchain : h.superclassChain s.className = .ok chain) :
    ∃ found, h.findInClass referenced s false = .ok found ∧
      (∀ d, found = some d → h.Chosen s false d) ∧
      (found = none → ∀ d, ¬h.Provides s false d) := by
  have ha := superclassChain_ok_iff.1 hchain
  refine ⟨firstDeclaring s.name s.descriptor chain, findInSuperclasses_of_ascent ha _ _,
    fun d hd => .superclass hchain (firstDeclaring_eq_some_iff.1 hd), ?_⟩
  rw [firstDeclaring_eq_none_iff, not_provides_iff ha]
  exact id

theorem findInClass_interface {object : ClassFile} (hobject : h.get? objectClass = some object)
    (hget : h.get? s.className = some referenced) :
    ∃ found, h.findInClass referenced s true = .ok found ∧
      (∀ d, found = some d → h.Chosen s true d) ∧
      (found = none → ∀ d, ¬h.Provides s true d) := by
  cases hown : referenced.method? s.name s.descriptor with
  | some m =>
    refine ⟨some ⟨referenced, m⟩, by simp [findInClass, hown], ?_, by simp⟩
    rintro d hd
    cases hd
    exact .interface hget hown
  | none =>
    refine ⟨((object.method? s.name s.descriptor).filter fun m =>
      m.accessFlags.isPublic && !m.accessFlags.isStatic).map (⟨object, ·⟩), ?_, ?_, ?_⟩
    · simp only [findInClass, hown, objectMethod?, find_ok_iff.2 hobject, bind, Except.bind]
      rfl
    · intro d hd
      obtain ⟨m, hm, rfl⟩ := Option.map_eq_some_iff.1 hd
      obtain ⟨hm, hflags⟩ := Option.filter_eq_some_iff.1 hm
      simp only [Bool.and_eq_true, Bool.not_eq_true'] at hflags
      exact .root hget hown hobject hm hflags.1 (by simp [hflags.2])
    · intro hnone d hd
      rw [Option.map_eq_none_iff] at hnone
      cases hd with
      | interface howner hdeclared =>
        obtain rfl := Option.some.inj (hget.symm.trans howner)
        simp [hown] at hdeclared
      | root howner hdeclared hpublic hinstance =>
        obtain rfl := Option.some.inj (hobject.symm.trans howner)
        simp [hdeclared, hpublic, hinstance] at hnone

/-- The search in the class and above it finds the first of what is provided. -/
theorem findInClass_provides (isInterface : Bool) (hh : h.Ordered)
    (hget : h.get? s.className = some referenced)
    (hchain : h.superclassChain s.className = .ok chain) :
    ∃ found, h.findInClass referenced s isInterface = .ok found ∧
      (∀ d, found = some d → h.Chosen s isInterface d) ∧
      (found = none → ∀ d, ¬h.Provides s isInterface d) := by
  obtain ⟨object, hobject, -⟩ := hh.root
  cases isInterface with
  | false => exact findInClass_superclasses hchain
  | true => exact findInClass_interface hobject hget

theorem Chosen.provides (hd : h.Chosen s isInterface d) :
    h.Provides s isInterface d ∨ h.Inheritable s d := by
  cases hd with
  | superclass hchain hfirst => exact .inl (.superclass hchain hfirst.mem hfirst.declared)
  | interface howner hdeclared => exact .inl (.interface howner hdeclared)
  | root _ _ howner hdeclared hpublic hinstance =>
    exact .inl (.root howner hdeclared hpublic hinstance)
  | inherited _ hd => exact .inr hd.toInheritable

theorem Provides.declares (hd : h.Provides s isInterface d) :
    h.DeclaresAs s.name s.descriptor d := by
  cases hd with
  | superclass hchain howner hdeclared =>
    exact declares_of_method? ((superclassChain_ok_iff.1 hchain).get?_of_mem howner) hdeclared
  | interface howner hdeclared =>
    exact declares_of_method? (name_of_get? howner ▸ howner) hdeclared
  | root howner hdeclared =>
    exact declares_of_method? (name_of_get? howner ▸ howner) hdeclared

theorem Chosen.declares (hd : h.Chosen s isInterface d) : h.DeclaresAs s.name s.descriptor d := by
  rcases hd.provides with hd | hd
  · exact hd.declares
  · exact declares_of_method? hd.owner.known hd.declared

/-- The class of a chosen method is a supertype of the class that the reference names. -/
theorem Chosen.isSubclass (hd : h.Chosen s isInterface d) (hname : ¬IsArrayName s.className) :
    h.isSubclass s.className d.owner.name := by
  rw [isSubclass_iff hname]
  rcases hd.provides with hd | hd
  · cases hd with
    | superclass hchain howner => exact .inr ((superclassChain_ok_iff.1 hchain).inherits howner)
    | interface howner => exact .inr (name_of_get? howner ▸ .refl)
    | root howner => exact .inl (name_of_get? howner)
  · exact .inr hd.owner.above.to_reflTransGen

/-- What the whole search comes to, before access is checked. -/
theorem resolveMethod_chosen (accessor : String) (hh : h.Ordered)
    (hget : h.get? s.className = some referenced) (hkind : referenced.isInterface = isInterface)
    (hchain : h.superclassChain s.className = .ok chain)
    (hplain : referenced.polymorphicMethod? s.name = none) :
    h.resolveMethod accessor s isInterface = .error (.methodNotFound s) ∧
        (∀ d, ¬h.Provides s isInterface d) ∧ (∀ d, ¬h.Inheritable s d) ∨
      ∃ d, h.Chosen s isInterface d ∧ h.resolveMethod accessor s isInterface =
        if h.isAccessible accessor d then .ok ⟨s.inClass d.owner.name, d.method.accessFlags, false⟩
        else .error (.methodNotAccessible (s.inClass d.owner.name)) := by
  obtain ⟨found, hfound, hchosen, hnone⟩ := findInClass_provides isInterface hh hget hchain
  rw [resolveMethod_of_findInClass hget hkind hplain hfound]
  cases found with
  | some d => exact .inr ⟨d, hchosen d rfl, rfl⟩
  | none =>
    rw [Option.none_or]
    cases hdefault : preferredDefault (h.maximallySpecific s.className s.name s.descriptor) with
    | some d =>
      have hd := hh.mem_maximallySpecific_iff.1 (mem_of_preferredDefault hdefault)
      refine .inr ⟨d, .inherited (hnone rfl) hd fun habstract e he => ?_, rfl⟩
      exact isAbstract_of_preferredDefault hdefault habstract (hh.mem_maximallySpecific_iff.2 he)
    | none =>
      refine .inl ⟨rfl, hnone rfl, fun d hd => ?_⟩
      obtain ⟨e, he⟩ := hh.exists_mostSpecific hd
      have hmem := hh.mem_maximallySpecific_iff.2 he
      rw [preferredDefault_eq_none_iff.1 hdefault] at hmem
      simp at hmem

/-- **Resolution is sound and complete.** There is no method if and only if none is provided and
none can be inherited. A reference is resolved to a chosen method of a supertype, if that is
accessible, and if it is not the reference is refused for this reason. Of several methods of a class
with one name and descriptor the first is the one that the class declares. -/
theorem resolveMethod_correct (hh : h.Ordered) (hget : h.get? s.className = some referenced)
    (hkind : referenced.isInterface = isInterface)
    (hchain : h.superclassChain s.className = .ok chain)
    (hplain : referenced.polymorphicMethod? s.name = none) :
    (h.resolveMethod accessor s isInterface = .error (.methodNotFound s) ↔
      (∀ d, ¬h.Provides s isInterface d) ∧ ∀ d, ¬h.Inheritable s d) ∧
    (∀ r, h.resolveMethod accessor s isInterface = .ok r →
      ∃ d, h.Resolved r d ∧ h.isSubclass s.className d.owner.name ∧ h.Accessible accessor d ∧
        h.Chosen s isInterface d) ∧
    ∀ e, h.resolveMethod accessor s isInterface = .error e → e = .methodNotFound s ∨
      ∃ d, h.Chosen s isInterface d ∧ ¬h.Accessible accessor d ∧
        e = .methodNotAccessible (s.inClass d.owner.name) := by
  rcases resolveMethod_chosen accessor hh hget hkind hchain hplain with
    ⟨hresolve, hnone⟩ | ⟨d, hd, hresolve⟩
  · rw [hresolve]
    exact ⟨by simp [hnone], by simp, by simp⟩
  have hsome : ¬((∀ d, ¬h.Provides s isInterface d) ∧ ∀ d, ¬h.Inheritable s d) := by
    rintro ⟨hprovides, hinheritable⟩
    exact hd.provides.elim (hprovides d) (hinheritable d)
  rw [hresolve]
  by_cases haccessible : h.isAccessible accessor d
  · rw [if_pos haccessible]
    refine ⟨by simp [hsome], fun r hr => ?_, by simp⟩
    cases hr
    have hname := hh.names _ _ hget
    exact ⟨d, ⟨hd.declares, rfl, rfl⟩, hd.isSubclass hname, isAccessible_iff.1 haccessible, hd⟩
  · rw [if_neg haccessible]
    refine ⟨by simp [hsome], by simp, fun e he => ?_⟩
    cases he
    exact .inr ⟨d, hd, fun haccess => haccessible (isAccessible_iff.2 haccess), rfl⟩

end Resolving

/-- The class `p/C` inherits a method from the interface `p/I` both directly and through `p/J`,
which declares it again. -/
def diamondClasses : Hierarchy :=
  [Bootstrap.object.build, idleInterface "p/I" [] 0x0001, idleInterface "p/J" ["p/I"] 0x0001,
    bareClass "p/C" objectClass ["p/I", "p/J"]].foldl add .empty

theorem ordered_diamondClasses : diamondClasses.Ordered := by
  refine .of_rank (fun name => if name = "p/C" then 3 else if name = "p/J" then 2
    else if name = "p/I" then 1 else 0) ?_ ?_ ⟨Bootstrap.object.build, ?_⟩
  all_goals decide +kernel

/-- The method of `p/J` is the one, and a method of another name is not found. -/
theorem resolveMethod_diamond :
    diamondClasses.Ordered ∧
    diamondClasses.resolveMethod "p/C" ⟨"p/C", "m", "()V"⟩ false =
      .ok ⟨⟨"p/J", "m", "()V"⟩, 0x0001, false⟩ ∧
    (∃ d, diamondClasses.Resolved ⟨⟨"p/J", "m", "()V"⟩, 0x0001, false⟩ d ∧
      diamondClasses.isSubclass "p/C" d.owner.name ∧ diamondClasses.Accessible "p/C" d ∧
      diamondClasses.Chosen ⟨"p/C", "m", "()V"⟩ false d) ∧
    (∀ d, ¬diamondClasses.Provides ⟨"p/C", "n", "()V"⟩ false d) ∧
    ∀ d, ¬diamondClasses.Inheritable ⟨"p/C", "n", "()V"⟩ d := by
  have hget : diamondClasses.get? "p/C" = some (bareClass "p/C" objectClass ["p/I", "p/J"]) := by
    decide +kernel
  have hchain : diamondClasses.superclassChain "p/C" =
      .ok [bareClass "p/C" objectClass ["p/I", "p/J"], Bootstrap.object.build] := by
    decide +kernel
  have hm : diamondClasses.resolveMethod "p/C" ⟨"p/C", "m", "()V"⟩ false =
      .ok ⟨⟨"p/J", "m", "()V"⟩, 0x0001, false⟩ := by decide +kernel
  have hn : diamondClasses.resolveMethod "p/C" ⟨"p/C", "n", "()V"⟩ false =
      .error (.methodNotFound ⟨"p/C", "n", "()V"⟩) := by decide +kernel
  refine ⟨ordered_diamondClasses, hm, ?_, ?_⟩
  · exact (resolveMethod_correct ordered_diamondClasses hget (by decide) hchain
      (by decide +kernel)).2.1 _ hm
  · exact (resolveMethod_correct ordered_diamondClasses hget (by decide) hchain
      (by decide +kernel)).1.1 hn

end SymbolicBytecode.Hierarchy

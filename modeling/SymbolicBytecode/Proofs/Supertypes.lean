import Mathlib
import SymbolicBytecode.Hierarchy.Subtyping
import SymbolicBytecode.Proofs.Chains

/-!
# Supertypes

The breadth-first walk over supertypes visits the classes that declarations lead to, and no others.
Subtyping between names that are not those of array classes is therefore what the declarations say,
and the superclasses of a class are among its supertypes, on cyclic and incomplete hierarchies too.
-/
namespace SymbolicBytecode

open Relation (ReflTransGen)

/-- The name begins with a bracket, as those of array classes do. -/
def IsArrayName (name : String) : Prop := ∃ component, name.toList = '[' :: component

instance : DecidablePred IsArrayName := fun name =>
  match h : name.toList with
  | [] => .isFalse (by simp [IsArrayName, h])
  | c :: rest =>
    if hc : c = '[' then .isTrue ⟨rest, hc ▸ h⟩ else .isFalse (by simp [IsArrayName, h, hc])

namespace Hierarchy

variable {h : Hierarchy} {name other sub sup : String} {seen queue : List String}

/-- A known class declares the other one as its superclass or as a superinterface. -/
def Inherits (h : Hierarchy) (name other : String) : Prop :=
  ∃ c, h.get? name = some c ∧ other ∈ c.supertypes

theorem mem_declaredSupertypes : other ∈ h.declaredSupertypes name ↔ h.Inherits name other := by
  unfold declaredSupertypes Inherits
  cases h.get? name <;> simp

theorem mem_walk_of_seen (hname : name ∈ seen) : name ∈ h.walk seen queue := by
  fun_induction walk h seen queue with
  | case1 => simpa using hname
  | case2 seen next queue hnext ih => exact ih hname
  | case3 seen next queue hnext ih => exact ih (List.mem_cons_of_mem _ hname)

theorem mem_walk_of_queue (hname : name ∈ queue) : name ∈ h.walk seen queue := by
  fun_induction walk h seen queue with
  | case1 => simp at hname
  | case2 seen next queue hnext ih =>
    rcases List.mem_cons.1 hname with rfl | hname
    · exact mem_walk_of_seen hnext
    · exact ih hname
  | case3 seen next queue hnext ih =>
    rcases List.mem_cons.1 hname with rfl | hname
    · exact mem_walk_of_seen List.mem_cons_self
    · exact ih (List.mem_append_left _ hname)

theorem nodup_walk (hseen : seen.Nodup) : (h.walk seen queue).Nodup := by
  fun_induction walk h seen queue with
  | case1 => simpa using hseen
  | case2 seen next queue hnext ih => exact ih hseen
  | case3 seen next queue hnext ih => exact ih (List.nodup_cons.2 ⟨hnext, hseen⟩)

theorem walk_sound (hname : name ∈ h.walk seen queue) :
    name ∈ seen ∨ ∃ start ∈ queue, ReflTransGen h.Inherits start name := by
  fun_induction walk h seen queue with
  | case1 => exact .inl (List.mem_reverse.1 hname)
  | case2 seen next queue hnext ih =>
    refine (ih hname).imp_right ?_
    rintro ⟨start, hstart, hsteps⟩
    exact ⟨start, List.mem_cons_of_mem _ hstart, hsteps⟩
  | case3 seen next queue hnext ih =>
    rcases ih hname with hseen | ⟨start, hstart, hsteps⟩
    · rcases List.mem_cons.1 hseen with rfl | hseen
      · exact .inr ⟨name, List.mem_cons_self, .refl⟩
      · exact .inl hseen
    · rcases List.mem_append.1 hstart with hstart | hstart
      · exact .inr ⟨start, List.mem_cons_of_mem _ hstart, hsteps⟩
      · exact .inr ⟨next, List.mem_cons_self, .head (mem_declaredSupertypes.1 hstart) hsteps⟩

/-- Whatever has been seen waits to be followed up, so at the end nothing is left open. -/
theorem walk_closed
    (hseen : ∀ n ∈ seen, ∀ m, h.Inherits n m → m ∈ seen ∨ m ∈ queue)
    (hname : name ∈ h.walk seen queue) (hinherits : h.Inherits name other) :
    other ∈ h.walk seen queue := by
  fun_induction walk h seen queue with
  | case1 => simpa using hseen name (List.mem_reverse.1 hname) other hinherits
  | case2 seen next queue hnext ih =>
    refine ih (fun n hn m hm => ?_) hname
    rcases hseen n hn m hm with hm | hm
    · exact .inl hm
    · rcases List.mem_cons.1 hm with rfl | hm
      · exact .inl hnext
      · exact .inr hm
  | case3 seen next queue hnext ih =>
    refine ih (fun n hn m hm => ?_) hname
    rcases List.mem_cons.1 hn with rfl | hn
    -- The class that was just seen: all that it declares is put in the queue.
    · exact .inr (List.mem_append_right _ (mem_declaredSupertypes.2 hm))
    · rcases hseen n hn m hm with hm | hm
      · exact .inl (List.mem_cons_of_mem _ hm)
      · rcases List.mem_cons.1 hm with rfl | hm
        · exact .inl List.mem_cons_self
        · exact .inr (List.mem_append_left _ hm)

theorem mem_reached_iff : other ∈ h.reached name ↔ ReflTransGen h.Inherits name other := by
  constructor
  · intro hreached
    simpa using walk_sound hreached
  · intro hsteps
    induction hsteps with
    | refl => exact mem_walk_of_queue List.mem_cons_self
    | tail _ hinherits ih => exact walk_closed (by simp) ih hinherits

theorem isSubclass_iff (hsub : ¬IsArrayName sub) :
    h.isSubclass sub sup ↔ sup = objectClass ∨ ReflTransGen h.Inherits sub sup := by
  rw [isSubclass]
  split
  · next heq =>
    rcases heq with rfl | rfl
    · exact iff_of_true rfl (.inr .refl)
    · exact iff_of_true rfl (.inl rfl)
  next hne =>
  split
  · next component hcomponent => exact absurd ⟨component, hcomponent⟩ hsub
  · rw [List.contains_iff_mem, mem_reached_iff, or_iff_right fun heq => hne (.inr heq)]

theorem Ascent.inherits {chain : List ClassFile} (ha : Ascent h name chain) {c : ClassFile}
    (hc : c ∈ chain) : ReflTransGen h.Inherits name c.name := by
  induction ha with
  | root hget =>
    rw [List.mem_singleton.1 hc, name_of_get? hget]
  | step hget hsuper rest ih =>
    rcases List.mem_cons.1 hc with rfl | hc
    · rw [name_of_get? hget]
    · exact .head ⟨_, hget, by simp [ClassFile.supertypes, hsuper]⟩ (ih hc)

/-- What a superclass is below, its subclasses are below as well. -/
theorem Ascent.isSubclass {chain : List ClassFile} (ha : Ascent h name chain)
    (hnames : ∀ n c, h.get? n = some c → ¬IsArrayName n) {c : ClassFile} (hc : c ∈ chain)
    (hbelow : h.isSubclass c.name sup) : h.isSubclass name sup := by
  have hfirst : ¬IsArrayName name := by
    cases ha with
    | root hget => exact hnames _ _ hget
    | step hget => exact hnames _ _ hget
  rw [isSubclass_iff (hnames _ _ (ha.get?_of_mem hc))] at hbelow
  rw [isSubclass_iff hfirst]
  exact hbelow.imp_right (ha.inherits hc).trans

end Hierarchy

end SymbolicBytecode

import Mathlib
import SymbolicBytecode.Loading.Classpath

/-!
# A class loader at work

A class loader remembers which classes it is loading. It enters a name before it looks for the file
of the class and takes the name out again, however that ends; a class that it is asked for in the
meantime is a supertype of its own. `Classpath.Answers` has the rules of this, which say nothing
about why it should ever come to an end. It always does, in one way only, with the same names
remembered as before, and `Classpath.load` computes what it comes to.
-/
namespace SymbolicBytecode

/-- A supertype that a class declares, and what it has to be. -/
structure Need where
  name : String
  isInterface : Bool
  deriving DecidableEq, Repr

def Need.refusal (need : Need) (className : String) : LoadError :=
  if need.isInterface then .superinterfaceIsClass need.name className
  else .superclassIsInterface need.name className

/-- What a class needs, in the order of loading: a superclass that is a class, and superinterfaces
that are interfaces. -/
def ClassFile.needs (c : ClassFile) : List Need :=
  c.superName.toList.map (⟨·, false⟩) ++ c.interfaces.map (⟨·, true⟩)

theorem ClassFile.map_name_needs (c : ClassFile) : c.needs.map Need.name = c.supertypes := by
  simp [needs, supertypes, Function.comp_def]

structure Loader where
  session : LoadSession
  /-- The names of the classes that are being loaded. -/
  pending : Finset String

namespace Loader

def hierarchy (l : Loader) : Hierarchy := l.session.hierarchy

def note (l : Loader) (e : Event) : Loader :=
  { l with session := { l.session with events := e :: l.session.events } }

def add (l : Loader) (c : ClassFile) : Loader :=
  { l with session := { l.session with hierarchy := l.session.hierarchy.add c } }

def enter (l : Loader) (name : String) : Loader := { l with pending := insert name l.pending }

def leave (l : Loader) (name : String) : Loader := { l with pending := l.pending.erase name }

variable (l : Loader) (e : Event) (c : ClassFile) (name : String)

@[simp] theorem note_hierarchy : (l.note e).hierarchy = l.hierarchy := rfl

@[simp] theorem note_pending : (l.note e).pending = l.pending := rfl

@[simp] theorem add_hierarchy : (l.add c).hierarchy = l.hierarchy.add c := rfl

@[simp] theorem add_pending : (l.add c).pending = l.pending := rfl

@[simp] theorem enter_hierarchy : (l.enter name).hierarchy = l.hierarchy := rfl

@[simp] theorem enter_pending : (l.enter name).pending = insert name l.pending := rfl

@[simp] theorem leave_hierarchy : (l.leave name).hierarchy = l.hierarchy := rfl

@[simp] theorem leave_pending : (l.leave name).pending = l.pending.erase name := rfl

end Loader

/-- What a loader can be asked to do. -/
inductive Request where
  | load (name : String)
  /-- Look for the file of a class and load the class from there. -/
  | derive (name : String)
  /-- Load what a class still needs, and add the class. -/
  | complete (c : ClassFile) (needs : List Need)

/-- The class that a request is about. -/
def Request.className : Request → String
  | load name => name
  | derive name => name
  | complete c _ => c.name

/-- What comes of a request, and the loader afterwards. -/
inductive Classpath.Answers (cp : Classpath) :
    Request → Loader → Except LoadError ClassFile → Loader → Prop
  | known {name : String} {c : ClassFile} {l : Loader} (hget : l.hierarchy.get? name = some c) :
      Answers cp (.load name) l (.ok c) l
  | circular {name : String} {l : Loader} (hget : l.hierarchy.get? name = none)
      (hpending : name ∈ l.pending) : Answers cp (.load name) l (.error (.circularity name)) l
  | load {name : String} {r : Except LoadError ClassFile} {l m : Loader}
      (hget : l.hierarchy.get? name = none) (hpending : name ∉ l.pending)
      (hderive : Answers cp (.derive name) (l.enter name) r m) :
      Answers cp (.load name) l r (m.leave name)
  | missing {name : String} {reason : Option FileError} {l : Loader}
      (hfind : cp.find name = .error reason) :
      Answers cp (.derive name) l (.error (.notFound name reason)) l
  | undefined {name path : String} {bytes : Bytes} {e : LoadError} {l : Loader}
      (hfind : cp.find name = .ok (path, bytes)) (hdefine : define name path bytes = .error e) :
      Answers cp (.derive name) l (.error e) (l.note (.loading name path))
  | derive {name path : String} {bytes : Bytes} {c : ClassFile}
      {r : Except LoadError ClassFile} {l m : Loader}
      (hfind : cp.find name = .ok (path, bytes)) (hdefine : define name path bytes = .ok c)
      (hcomplete : Answers cp (.complete c c.needs) (l.note (.loading name path)) r m) :
      Answers cp (.derive name) l r m
  | add {c : ClassFile} {l : Loader} :
      Answers cp (.complete c []) l (.ok c) ((l.note (.loaded c.name)).add c)
  | fails {c : ClassFile} {need : Need} {rest : List Need} {e : LoadError} {l m : Loader}
      (hload : Answers cp (.load need.name) l (.error e) m) :
      Answers cp (.complete c (need :: rest)) l (.error e) m
  | refuses {c s : ClassFile} {need : Need} {rest : List Need} {l m : Loader}
      (hload : Answers cp (.load need.name) l (.ok s) m)
      (hkind : s.isInterface ≠ need.isInterface) :
      Answers cp (.complete c (need :: rest)) l (.error (need.refusal c.name)) m
  | meets {c s : ClassFile} {need : Need} {rest : List Need} {r : Except LoadError ClassFile}
      {l m k : Loader} (hload : Answers cp (.load need.name) l (.ok s) m)
      (hkind : s.isInterface = need.isInterface) (hrest : Answers cp (.complete c rest) m r k) :
      Answers cp (.complete c (need :: rest)) l r k

namespace Loading

/-- The work on a class that is left once its file has been read. -/
def completing (load : String → Loading ClassFile) (c : ClassFile) : List Need → Loading ClassFile
  | [] => do
    note (.loaded c.name)
    add c
    return c
  | need :: rest => do
    let s ← load need.name
    if s.isInterface = need.isInterface then completing load c rest
    else throw (need.refusal c.name)

theorem completing_interfaces (load : String → Loading ClassFile) (c : ClassFile)
    (names : List String) :
    (do loadInterfaces load c.name names; note (.loaded c.name); add c; return c) =
      completing load c (names.map (⟨·, true⟩)) := by
  induction names with
  | nil => rfl
  | cons name rest ih =>
    rw [loadInterfaces, List.map_cons, completing, bind_assoc]
    refine bind_congr fun s => ?_
    by_cases hkind : s.isInterface
    · rw [if_pos hkind, if_pos hkind, ih]
    · rw [if_neg hkind, if_neg hkind]
      rfl

/-- The superclass and the superinterfaces are needs like any others. -/
theorem completing_needs (load : String → Loading ClassFile) (c : ClassFile) :
    (do loadSuperclass load c; loadInterfaces load c.name c.interfaces
        note (.loaded c.name); add c; return c) = completing load c c.needs := by
  have hinterfaces := completing_interfaces load c c.interfaces
  unfold loadSuperclass ClassFile.needs
  cases c.superName with
  | none => exact hinterfaces
  | some superName =>
    simp only [Option.toList_some, List.map_cons, List.map_nil, List.singleton_append, completing,
      bind_assoc, ← hinterfaces]
    refine bind_congr fun s => ?_
    cases hkind : s.isInterface <;> rfl

end Loading

namespace Classpath

variable {cp : Classpath} {q : Request} {r r' : Except LoadError ClassFile} {l m m' : Loader}

/-- One step of loading: the class is known or pending, or its file is read and its supertypes are
loaded with one more class pending. -/
theorem apply_load (cp : Classpath) (pending : List String) (name : String) (σ : LoadSession) :
    (cp.load pending name).apply σ =
      match σ.hierarchy.get? name with
      | some c => (.ok c, σ)
      | none =>
        if name ∈ pending then (.error (.circularity name), σ)
        else
          match cp.find name with
          | .error reason => (.error (.notFound name reason), σ)
          | .ok (path, bytes) =>
            match define name path bytes with
            | .error e => (.error e, { σ with events := .loading name path :: σ.events })
            | .ok c => (Loading.completing (cp.load (name :: pending)) c c.needs).apply
                { σ with events := .loading name path :: σ.events } := by
  rw [load, Loading.apply_bind, Loading.apply_known?]
  cases σ.hierarchy.get? name with
  | some c => rfl
  | none =>
    dsimp only
    by_cases hpending : name ∈ pending
    · rw [dif_pos hpending, if_pos hpending]
      rfl
    rw [dif_neg hpending, if_neg hpending]
    split
    · next hfind =>
      rw [hfind]
      rfl
    · next path bytes hfind =>
      rw [hfind, Loading.apply_bind, Loading.apply_note]
      dsimp only
      split
      · next hdefine =>
        rw [hdefine]
        rfl
      · next c hdefine =>
        obtain ⟨-, rfl⟩ := parse_of_define hdefine
        rw [hdefine]
        dsimp only
        rw [← Loading.completing_needs]

theorem completing_answers {load : String → Loading ClassFile} {pending : Finset String}
    (hload : ∀ name σ, cp.Answers (.load name) ⟨σ, pending⟩ ((load name).apply σ).1
      ⟨((load name).apply σ).2, pending⟩) (c : ClassFile) (needs : List Need) (σ : LoadSession) :
    cp.Answers (.complete c needs) ⟨σ, pending⟩ ((Loading.completing load c needs).apply σ).1
      ⟨((Loading.completing load c needs).apply σ).2, pending⟩ := by
  induction needs generalizing σ with
  | nil => exact .add
  | cons need rest ih =>
    have hfirst := hload need.name σ
    rw [Loading.completing, Loading.apply_bind]
    rcases hneed : (load need.name).apply σ with ⟨e | s, τ⟩
    · rw [hneed] at hfirst
      exact .fails hfirst
    rw [hneed] at hfirst
    dsimp only
    split
    · next hkind => exact .meets hfirst hkind (ih τ)
    · next hkind => exact .refuses hfirst hkind

/-- Loading follows the rules. Each class on the way down takes up one of the remaining files. -/
theorem load_answers (cp : Classpath) (pending : List String) (name : String) (σ : LoadSession) :
    cp.Answers (.load name) ⟨σ, pending.toFinset⟩ ((cp.load pending name).apply σ).1
      ⟨((cp.load pending name).apply σ).2, pending.toFinset⟩ := by
  induction hfiles : cp.remaining pending using Nat.strongRecOn generalizing pending name σ with
  | ind files ih =>
    rw [apply_load]
    cases hget : σ.hierarchy.get? name with
    | some c => exact .known hget
    | none =>
      dsimp only
      by_cases hpending : name ∈ pending
      · rw [if_pos hpending]
        exact .circular hget (List.mem_toFinset.2 hpending)
      rw [if_neg hpending]
      have hnew : name ∉ pending.toFinset := fun hmem => hpending (List.mem_toFinset.1 hmem)
      have hload {r : Except LoadError ClassFile} {τ : LoadSession}
          (hderive : cp.Answers (.derive name) ⟨σ, insert name pending.toFinset⟩ r
            ⟨τ, insert name pending.toFinset⟩) :
          cp.Answers (.load name) ⟨σ, pending.toFinset⟩ r ⟨τ, pending.toFinset⟩ := by
        have hanswer := Answers.load (l := ⟨σ, pending.toFinset⟩) hget hnew hderive
        rwa [Loader.leave, Finset.erase_insert hnew] at hanswer
      cases hfind : cp.find name with
      | error reason => exact hload (.missing hfind)
      | ok file =>
        obtain ⟨path, bytes⟩ := file
        dsimp only
        cases hdefine : define name path bytes with
        | error e => exact hload (.undefined hfind hdefine)
        | ok c =>
          refine hload (.derive hfind hdefine ?_)
          rw [← List.toFinset_cons]
          refine completing_answers (fun name' τ => ?_) c c.needs _
          exact ih _ (hfiles ▸ remaining_cons_lt hpending hfind hdefine) (name :: pending) name' τ
            rfl

namespace Answers

/-- A loader comes to one end only. -/
theorem unique (h : cp.Answers q l r m) (h' : cp.Answers q l r' m') : r' = r ∧ m' = m := by
  induction h generalizing r' m' with
  | known hget => cases h' <;> simp_all
  | circular hget hpending => cases h' <;> simp_all
  | load hget hpending hderive ih =>
    cases h' with
    | known hget' => simp_all
    | circular hget' hpending' => exact absurd hpending' hpending
    | load hget' hpending' hderive' =>
      obtain ⟨rfl, rfl⟩ := ih hderive'
      exact ⟨rfl, rfl⟩
  | missing hfind => cases h' <;> simp_all
  | undefined hfind hdefine => cases h' <;> simp_all
  | derive hfind hdefine hcomplete ih =>
    cases h' with
    | missing hfind' => simp_all
    | undefined hfind' hdefine' => simp_all
    | derive hfind' hdefine' hcomplete' =>
      cases hfind.symm.trans hfind'
      cases hdefine.symm.trans hdefine'
      exact ih hcomplete'
  | add =>
    cases h'
    exact ⟨rfl, rfl⟩
  | fails hload ih =>
    cases h' with
    | fails hload' => simpa using ih hload'
    | refuses hload' => simpa using (ih hload').1
    | meets hload' => simpa using (ih hload').1
  | refuses hload hkind ih =>
    cases h' with
    | fails hload' => simpa using (ih hload').1
    | refuses hload' hkind' => exact ⟨rfl, (ih hload').2⟩
    | meets hload' hkind' =>
      obtain ⟨hsame, -⟩ := ih hload'
      cases hsame
      exact absurd hkind' hkind
  | meets hload hkind hrest ih ihrest =>
    cases h' with
    | fails hload' => simpa using (ih hload').1
    | refuses hload' hkind' =>
      obtain ⟨hsame, -⟩ := ih hload'
      cases hsame
      exact absurd hkind hkind'
    | meets hload' hkind' hrest' =>
      obtain ⟨-, rfl⟩ := ih hload'
      exact ihrest hrest'

/-- However a request ends, the loader remembers the same names as before. -/
theorem pending_eq (h : cp.Answers q l r m) : m.pending = l.pending := by
  induction h with
  | load hget hpending hderive ih =>
    rw [Loader.leave_pending, ih, Loader.enter_pending, Finset.erase_insert hpending]
  | derive hfind hdefine hcomplete ih => exact ih
  | fails hload ih => exact ih
  | refuses hload hkind ih => exact ih
  | meets hload hkind hrest ih ihrest => exact ihrest.trans ih
  | _ => rfl

/-- A class that was asked for with success is there. -/
theorem get?_of_ok (h : cp.Answers q l r m) {c : ClassFile} (hr : r = .ok c) :
    m.hierarchy.get? q.className = some c := by
  induction h with
  | known hget =>
    cases hr
    exact hget
  | load hget hpending hderive ih => exact ih hr
  | derive hfind hdefine hcomplete ih =>
    rw [← ih hr]
    exact congrArg _ (parse_of_define hdefine).2.symm
  | add =>
    cases hr
    simp [Request.className]
  | meets hload hkind hrest ih ihrest => exact ihrest hr
  | _ => cases hr

/-- A pending class does not get into the hierarchy, except by the request that it is pending
for. -/
theorem get?_of_pending (h : cp.Answers q l r m) {name : String} (hname : name ∈ l.pending)
    (hother : (∃ other, q = .load other) ∨ name ≠ q.className) :
    m.hierarchy.get? name = l.hierarchy.get? name := by
  induction h with
  | load hget hpending hderive ih =>
    refine ih (Finset.mem_insert_of_mem hname) (.inr ?_)
    rintro rfl
    exact hpending hname
  | derive hfind hdefine hcomplete ih =>
    refine ih hname (.inr ?_)
    rw [Request.className, (parse_of_define hdefine).2]
    exact hother.resolve_left (by simp)
  | add =>
    have hne := hother.resolve_left (by simp)
    simp only [Loader.add_hierarchy, Hierarchy.get?_add, Loader.note_hierarchy]
    exact if_neg hne
  | fails hload ih => exact ih hname (.inl ⟨_, rfl⟩)
  | refuses hload hkind ih => exact ih hname (.inl ⟨_, rfl⟩)
  | meets hload hkind hrest ih ihrest =>
    rw [← ih hname (.inl ⟨_, rfl⟩)]
    exact ihrest (hload.pending_eq ▸ hname) (.inr (hother.resolve_left (by simp)))
  | _ => rfl

end Answers

/-- Loading is what the rules lead to, and nothing else. -/
theorem answers_load_iff {pending : List String} {name : String} {σ : LoadSession} :
    cp.Answers (.load name) ⟨σ, pending.toFinset⟩ r m ↔
      r = ((cp.load pending name).apply σ).1 ∧
        m = ⟨((cp.load pending name).apply σ).2, pending.toFinset⟩ := by
  constructor
  · exact (load_answers cp pending name σ).unique
  · rintro ⟨rfl, rfl⟩
    exact load_answers cp pending name σ

end Classpath

end SymbolicBytecode

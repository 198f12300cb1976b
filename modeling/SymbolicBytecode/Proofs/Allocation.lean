import Mathlib
import SymbolicBytecode.Proofs.BootstrapClasses
import SymbolicBytecode.Proofs.StringObjects
import SymbolicBytecode.State.Statics

/-!
# The making of values

Values are made for the static fields of a class: objects for literals and symbols for what is
unknown. `Session.Allocates` says what all of this leaves alone, and `CreationFault` how it can
fail as long as the bootstrap classes are in place.
-/
namespace SymbolicBytecode

open Text (IsShort)

/-- The second session comes from the first by making objects, literals and symbols. -/
structure Session.Allocates (σ τ : Session) : Prop where
  queries : τ.queries = σ.queries
  hierarchy : τ.state.hierarchy = σ.state.hierarchy
  stack : τ.state.stack = σ.state.stack
  statics : τ.state.statics = σ.state.statics
  path : τ.state.path = σ.state.path
  heapLimit : τ.state.heapLimit = σ.state.heapLimit
  host : τ.state.host = σ.state.host
  uncaught : τ.state.uncaught = σ.state.uncaught

/-- Why the static entry of a class cannot be created: there is no memory, or the class file of the
class or of a superclass is malformed or missing. If the texts of the class are not all `short`, it
can also be that there is no array for the characters of one. -/
inductive CreationFault (short : Prop) : Fault → Prop
  | exhausted : CreationFault short .heapMemoryExhausted
  | index (e : InvalidIndex) : CreationFault short (.invalidIndex e)
  | descriptor (e : MalformedDescriptor) : CreationFault short (.descriptor e)
  | notFound (className : String) : CreationFault short (.link (.classNotFound className))
  | illFormed (className : String) : CreationFault short (.link (.classIllFormed className))
  | overlong {e : Fault} (hfault : e.IsOverlong) (hlong : ¬short) : CreationFault short e

theorem CreationFault.mono {short short' : Prop} {e : Fault} (h : CreationFault short e)
    (himp : short' → short) : CreationFault short' e := by
  cases h with
  | exhausted => exact .exhausted
  | index e => exact .index e
  | descriptor e => exact .descriptor e
  | notFound className => exact .notFound className
  | illFormed className => exact .illFormed className
  | overlong hfault hlong => exact .overlong hfault (mt himp hlong)

/-- There is an array for the characters of every text constant. -/
def ConstantPool.HasShortTexts (pool : ConstantPool) : Prop :=
  ∀ index text, pool.literal index = .ok (.string text) → IsShort text

def Hierarchy.HasShortTexts (h : Hierarchy) : Prop :=
  ∀ name c, h.get? name = some c → c.pool.HasShortTexts

namespace Session.Allocates

theorem refl (σ : Session) : Allocates σ σ := ⟨rfl, rfl, rfl, rfl, rfl, rfl, rfl, rfl⟩

theorem trans {σ ρ τ : Session} (h : Allocates σ ρ) (h' : Allocates ρ τ) : Allocates σ τ where
  queries := h'.queries.trans h.queries
  hierarchy := h'.hierarchy.trans h.hierarchy
  stack := h'.stack.trans h.stack
  statics := h'.statics.trans h.statics
  path := h'.path.trans h.path
  heapLimit := h'.heapLimit.trans h.heapLimit
  host := h'.host.trans h.host
  uncaught := h'.uncaught.trans h.uncaught

end Session.Allocates

open Session (Allocates)

namespace Exec

variable {short : Prop}

def ValueFault (short : Prop) (σ : Session) (e : Fault) : Prop :=
  σ.state.hierarchy.Includes .bootstrap → CreationFault short e

theorem ValueFault.mono {short' : Prop} {σ : Session} {e : Fault} (h : ValueFault short σ e)
    (himp : short' → short) : ValueFault short' σ e :=
  fun hb => (h hb).mono himp

/-- The operation only makes values, and fails as that can fail. -/
def MakesValues {α : Type} (short : Prop) (x : Exec Fault α) : Prop :=
  ∀ σ, Obeys (Allocates σ) (ValueFault short σ) x

theorem MakesValues.bind {α β : Type} {x : Exec Fault α} {f : α → Exec Fault β}
    (hx : MakesValues short x) (hf : ∀ a, MakesValues short (f a)) : MakesValues short (x >>= f) :=
  fun σ => (hx σ).bind fun a => hf a σ

theorem MakesValues.pure {α : Type} (a : α) : MakesValues short (Pure.pure a) :=
  fun _ => Obeys.pure a

theorem MakesValues.lift {α : Type} {x : Except Fault α}
    (hx : ∀ e, x = .error e → CreationFault short e) :
    MakesValues short (liftM x : Exec Fault α) :=
  fun _ => Obeys.lift fun e he _ => hx e he

theorem MakesValues.mono {short' : Prop} {α : Type} {x : Exec Fault α} (hx : MakesValues short x)
    (himp : short' → short) : MakesValues short' x :=
  fun σ ρ hρ => ⟨(hx σ ρ hρ).1, fun e he => ((hx σ ρ hρ).2 e he).mono himp⟩

theorem MakesValues.allocates {α : Type} {x : Exec Fault α} (hx : MakesValues short x)
    {σ τ : Session} {r : Except Fault α} (h : x.apply σ = (r, τ)) : Allocates σ τ :=
  (hx σ).state_of_apply (.refl σ) h

theorem MakesValues.fault {α : Type} {x : Exec Fault α} (hx : MakesValues short x) {σ τ : Session}
    {e : Fault} (h : x.apply σ = (.error e, τ)) : ValueFault short σ e :=
  (hx σ).fault_of_apply (.refl σ) h

theorem checkCapacity_error {s : State} {e : Fault} (h : s.checkCapacity = .error e) :
    e = .heapMemoryExhausted := by
  unfold State.checkCapacity at h
  split at h
  · cases h; rfl
  · cases h

theorem Interns.allocates {text : String} {σ τ : Session} {r : Except Fault Nat}
    (h : Interns text σ r τ) : Allocates σ τ := by
  cases h <;> exact ⟨rfl, rfl, rfl, rfl, rfl, rfl, rfl, rfl⟩

theorem LiteralFault.creationFault {text : String} {h : Hierarchy} {e : Fault}
    (hfault : LiteralFault text h e) (hb : h.Includes .bootstrap) :
    CreationFault (IsShort text) e := by
  cases hfault with
  | exhausted => exact .exhausted
  | overlong hoverlong hlong => exact .overlong hoverlong hlong
  | unformed hstrings => exact absurd hb.stringFields hstrings

theorem internString_makesValues (text : String) :
    MakesValues (IsShort text) (internString text) := by
  intro σ ρ hρ
  rcases hrun : (internString text).apply ρ with ⟨r, τ⟩
  obtain ⟨π, hinterns, rfl⟩ := internString_interns hrun
  refine ⟨hρ.trans (hinterns.allocates.trans ⟨rfl, rfl, rfl, rfl, rfl, rfl, rfl, rfl⟩), ?_⟩
  rintro e rfl hb
  exact hinterns.literalFault.creationFault (hρ.hierarchy ▸ hb)

theorem literalValue_makesValues (pool : ConstantPool) (index : PoolIndex) :
    MakesValues pool.HasShortTexts (literalValue pool index) := by
  intro σ
  rw [literalValue]
  refine Obeys.lift_bind (fun e he _ => ?_) fun literal hliteral => ?_
  · obtain ⟨d, -, rfl⟩ := except_mapError_error_iff.1 he
    exact .index d
  · cases literal with
    | string text =>
      have hmakes := (internString_makesValues text).mono fun hshort : pool.HasShortTexts =>
        hshort index text (except_mapError_ok_iff.1 hliteral)
      exact (hmakes.bind fun p => .pure _) σ
    | _ => exact .pure _

theorem freshId_makesValues : MakesValues short freshId :=
  fun _ _ hρ => ⟨hρ.trans ⟨rfl, rfl, rfl, rfl, rfl, rfl, rfl, rfl⟩, fun e he => by cases he⟩

theorem freshValue_makesValues (type : FieldType) (origin : String) :
    MakesValues short (freshValue type origin) := by
  unfold freshValue
  split
  · exact (freshId_makesValues.bind fun id => .pure _).bind fun ref => .pure _
  · exact (freshId_makesValues.bind fun id => .pure _).bind fun symbol => .pure _

theorem initialValue_makesValues (c : ClassFile) (symbolic : Bool) (f : Field) (type : FieldType) :
    MakesValues c.pool.HasShortTexts (initialValue c symbolic f type) := by
  unfold initialValue
  split
  · exact literalValue_makesValues _ _
  · split
    · exact freshValue_makesValues _ _
    · exact .pure _

theorem initialValues_makesValues (c : ClassFile) (symbolic : Bool) (fields : List Field)
    (found : Table Value) :
    MakesValues c.pool.HasShortTexts (initialValues c symbolic found fields) := by
  induction fields generalizing found with
  | nil => exact .pure _
  | cons f rest ih =>
    refine .bind (.lift fun e he => ?_) fun type =>
      (initialValue_makesValues c symbolic f type).bind fun v => ih _
    obtain ⟨d, -, rfl⟩ := except_mapError_error_iff.1 he
    exact .descriptor d

end Exec

end SymbolicBytecode

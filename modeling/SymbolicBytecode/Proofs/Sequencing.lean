import Mathlib
import SymbolicBytecode.Session

/-!
# Operations in sequence

Three ways to take an operation apart. The inversion lemmas say how a sequence came to the end it
came to, step by step. `Exec.Obeys` says of an operation, whatever it comes to, that it keeps an
invariant and fails only in certain ways; it is carried from the steps of a sequence to the whole.
`Exec.MadeOf` says which elementary changes an operation is made of, so that an invariant of the
changes is one of all operations.
-/
namespace SymbolicBytecode

open Relation (ReflTransGen)

variable {ε δ α β : Type}

theorem except_bind_ok_iff {x : Except ε α} {f : α → Except ε β} {b : β} :
    x >>= f = .ok b ↔ ∃ a, x = .ok a ∧ f a = .ok b := by
  cases x <;> simp [bind, Except.bind]

theorem except_bind_error_iff {x : Except ε α} {f : α → Except ε β} {e : ε} :
    x >>= f = .error e ↔ x = .error e ∨ ∃ a, x = .ok a ∧ f a = .error e := by
  cases x <;> simp [bind, Except.bind]

theorem except_mapError_ok_iff {g : ε → δ} {x : Except ε α} {a : α} :
    x.mapError g = .ok a ↔ x = .ok a := by
  cases x <;> simp [Except.mapError]

theorem except_mapError_error_iff {g : ε → δ} {x : Except ε α} {d : δ} :
    x.mapError g = .error d ↔ ∃ e, x = .error e ∧ g e = d := by
  cases x <;> simp [Except.mapError]

theorem Session.inv_of_steps {step : Session → Session → Prop} (inv : Session → Prop)
    (hstep : ∀ σ τ, step σ τ → inv σ → inv τ) {σ τ : Session} (hsteps : ReflTransGen step σ τ)
    (hσ : inv σ) : inv τ := by
  induction hsteps with
  | refl => exact hσ
  | tail _ hlast ih => exact hstep _ _ hlast ih

namespace Exec

theorem apply_of_fst {x : Exec ε α} {σ : Session} {r : Except ε α} (h : (x.apply σ).1 = r) :
    x.apply σ = (r, (x.apply σ).2) := Prod.ext h rfl

theorem apply_bind_ok_iff {x : Exec ε α} {f : α → Exec ε β} {σ τ : Session} {b : β} :
    (x >>= f).apply σ = (.ok b, τ) ↔
      ∃ a ρ, x.apply σ = (.ok a, ρ) ∧ (f a).apply ρ = (.ok b, τ) := by
  rw [apply_bind]
  rcases x.apply σ with ⟨_ | a, ρ⟩ <;> simp

theorem apply_bind_error_iff {x : Exec ε α} {f : α → Exec ε β} {σ τ : Session} {e : ε} :
    (x >>= f).apply σ = (.error e, τ) ↔
      x.apply σ = (.error e, τ) ∨
        ∃ a ρ, x.apply σ = (.ok a, ρ) ∧ (f a).apply ρ = (.error e, τ) := by
  rw [apply_bind]
  rcases x.apply σ with ⟨_ | a, ρ⟩ <;> simp

theorem apply_mapError_ok_iff {f : ε → δ} {x : Exec ε α} {σ τ : Session} {a : α} :
    (mapError f x).apply σ = (.ok a, τ) ↔ x.apply σ = (.ok a, τ) := by
  rw [apply_mapError, Prod.mk.injEq, except_mapError_ok_iff, Prod.ext_iff]

theorem apply_mapError_error_iff {f : ε → δ} {x : Exec ε α} {σ τ : Session} {d : δ} :
    (mapError f x).apply σ = (.error d, τ) ↔ ∃ e, x.apply σ = (.error e, τ) ∧ f e = d := by
  rw [apply_mapError, Prod.mk.injEq, except_mapError_error_iff]
  simp only [Prod.ext_iff]
  tauto

@[simp] theorem apply_state_bind (f : State → Exec ε β) (σ : Session) :
    (state >>= f).apply σ = (f σ.state).apply σ := by
  rw [apply_bind, apply_state]

@[simp] theorem apply_note_bind (e : Event) (f : Unit → Exec ε β) (σ : Session) :
    (note e >>= f).apply σ = (f ()).apply { σ with events := e :: σ.events } := by
  rw [apply_bind, apply_note]

theorem apply_lift_bind_ok_iff {x : Except ε α} {f : α → Exec ε β} {σ τ : Session} {b : β} :
    (liftM x >>= f).apply σ = (.ok b, τ) ↔ ∃ a, x = .ok a ∧ (f a).apply σ = (.ok b, τ) := by
  rw [apply_bind, apply_liftM]
  cases x <;> simp

theorem apply_lift_bind_error_iff {x : Except ε α} {f : α → Exec ε β} {σ τ : Session} {e : ε} :
    (liftM x >>= f).apply σ = (.error e, τ) ↔
      (x = .error e ∧ τ = σ) ∨ ∃ a, x = .ok a ∧ (f a).apply σ = (.error e, τ) := by
  rw [apply_bind, apply_liftM]
  cases x <;> simp [eq_comm]

/-- From a session with the invariant the operation comes to one with the invariant, and if it fails
then in one of the ways named. -/
def Obeys (inv : Session → Prop) (fault : ε → Prop) (x : Exec ε α) : Prop :=
  ∀ σ, inv σ → inv (x.apply σ).2 ∧ ∀ e, (x.apply σ).1 = .error e → fault e

namespace Obeys

variable {inv : Session → Prop} {fault : ε → Prop}

theorem state_of_apply {x : Exec ε α} (h : Obeys inv fault x) {σ τ : Session} {r : Except ε α}
    (hσ : inv σ) (hx : x.apply σ = (r, τ)) : inv τ := by
  simpa [hx] using (h σ hσ).1

theorem fault_of_apply {x : Exec ε α} (h : Obeys inv fault x) {σ τ : Session} {e : ε}
    (hσ : inv σ) (hx : x.apply σ = (.error e, τ)) : fault e :=
  (h σ hσ).2 e (by rw [hx])

theorem pure (a : α) : Obeys inv fault (Pure.pure a : Exec ε α) :=
  fun σ hσ => ⟨hσ, fun e he => by simp at he⟩

theorem bind {x : Exec ε α} {f : α → Exec ε β} (hx : Obeys inv fault x)
    (hf : ∀ a, Obeys inv fault (f a)) : Obeys inv fault (x >>= f) := by
  intro σ hσ
  have hfirst := hx σ hσ
  rw [apply_bind]
  rcases hr : x.apply σ with ⟨e | a, ρ⟩
  · simpa [hr] using hfirst
  · rw [hr] at hfirst
    exact hf a ρ hfirst.1

theorem lift {x : Except ε α} (hx : ∀ e, x = .error e → fault e) :
    Obeys inv fault (liftM x : Exec ε α) := by
  intro σ hσ
  rw [apply_liftM]
  exact ⟨hσ, hx⟩

theorem lift_bind {x : Except ε α} {f : α → Exec ε β} (hx : ∀ e, x = .error e → fault e)
    (hf : ∀ a, x = .ok a → Obeys inv fault (f a)) : Obeys inv fault (liftM x >>= f) := by
  intro σ hσ
  rw [apply_bind, apply_liftM]
  cases hr : x with
  | error e =>
    refine ⟨hσ, fun d hd => ?_⟩
    cases hd
    exact hx e hr
  | ok a => exact hf a hr σ hσ

end Obeys

/-- However the operation ends, the session gets there by steps of the given kind. -/
def MadeOf (step : Session → Session → Prop) (x : Exec ε α) : Prop :=
  ∀ σ, ReflTransGen step σ (x.apply σ).2

namespace MadeOf

variable {step step' : Session → Session → Prop} {x : Exec ε α} {f : α → Exec ε β}

theorem of_apply (hx : MadeOf step x) {σ τ : Session} {r : Except ε α} (h : x.apply σ = (r, τ)) :
    ReflTransGen step σ τ := by
  have hsteps := hx σ
  rwa [h] at hsteps

theorem mono (hx : MadeOf step x) (hstep : ∀ σ τ, step σ τ → step' σ τ) : MadeOf step' x :=
  fun σ => ReflTransGen.mono hstep _ _ (hx σ)

/-- Each step may in turn be made of smaller ones. -/
theorem refine (hx : MadeOf step x) (hstep : ∀ σ τ, step σ τ → ReflTransGen step' σ τ) :
    MadeOf step' x :=
  fun σ => (hx σ).lift' id hstep

theorem unchanged (hx : MadeOf (fun _ _ => False) x) {σ τ : Session} {r : Except ε α}
    (h : x.apply σ = (r, τ)) : τ = σ := by
  cases hx.of_apply h with
  | refl => rfl
  | tail _ hlast => exact hlast.elim

theorem preserves_of_apply (hx : MadeOf step x) (inv : Session → Prop)
    (hstep : ∀ σ τ, step σ τ → inv σ → inv τ) {σ τ : Session} {r : Except ε α} (hσ : inv σ)
    (h : x.apply σ = (r, τ)) : inv τ :=
  Session.inv_of_steps inv hstep (hx.of_apply h) hσ

theorem pure (a : α) : MadeOf step (Pure.pure a : Exec ε α) := fun _ => .refl

theorem throw (e : ε) : MadeOf step (MonadExcept.throw e : Exec ε α) := fun _ => .refl

theorem lift (r : Except ε α) : MadeOf step (liftM r : Exec ε α) := by
  intro σ
  rw [apply_liftM]

theorem state : MadeOf step (Exec.state : Exec ε State) := fun _ => .refl

/-- The rest of a sequence may rely on what its first operation has come to. -/
theorem steps_bind (hx : MadeOf step x) {σ : Session}
    (hf : ∀ a τ, x.apply σ = (.ok a, τ) → ReflTransGen step τ ((f a).apply τ).2) :
    ReflTransGen step σ ((x >>= f).apply σ).2 := by
  have hfirst := hx σ
  rw [apply_bind]
  rcases hr : x.apply σ with ⟨e | a, τ⟩
  · rwa [hr] at hfirst
  · rw [hr] at hfirst
    exact hfirst.trans (hf a τ hr)

theorem bind_of_ok (hx : MadeOf step x)
    (hf : ∀ σ a τ, x.apply σ = (.ok a, τ) → ReflTransGen step τ ((f a).apply τ).2) :
    MadeOf step (x >>= f) :=
  fun σ => hx.steps_bind (hf σ)

theorem bind (hx : MadeOf step x) (hf : ∀ a, MadeOf step (f a)) : MadeOf step (x >>= f) :=
  hx.bind_of_ok fun _ a τ _ => hf a τ

theorem state_bind {f : State → Exec ε β}
    (hf : ∀ σ : Session, ReflTransGen step σ ((f σ.state).apply σ).2) :
    MadeOf step (Exec.state >>= f) := by
  intro σ
  rw [apply_state_bind]
  exact hf σ

theorem attempt (hx : MadeOf step x) : MadeOf step (Exec.attempt x : Exec δ (Except ε α)) := hx

theorem mapError (hx : MadeOf step x) (g : ε → δ) : MadeOf step (Exec.mapError g x) := hx

end MadeOf

end Exec

end SymbolicBytecode

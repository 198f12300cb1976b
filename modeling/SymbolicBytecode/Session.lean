import SymbolicBytecode.Event

/-!
# Sessions

A session is a state together with what execution has done on the way to it: the questions asked of
the decision oracle, the literals asked for and the events reported. `Exec` is the type of the
operations on sessions. An operation that fails keeps the changes it made before it failed.
-/

namespace SymbolicBytecode

/-- A question asked of the oracle: was this class initialized before the execution began, given
these assumptions? -/
structure Query where
  className : String
  path : PathCondition
  deriving DecidableEq, Repr

/-- A request for the string object of a text: the state in which it was made, the position it came
to, and the state right after it. -/
structure LiteralRequest where
  text : String
  before : State
  answer : Except Fault Nat
  after : State

structure Session where
  state : State
  /-- The questions asked so far, latest first. -/
  queries : List Query
  /-- The literals asked for so far, latest first. -/
  requests : List LiteralRequest
  /-- The events so far, latest first. -/
  events : List Event

def Session.start (s : State) : Session := ⟨s, [], [], []⟩

abbrev Exec (ε : Type) := ExceptT ε (StateM Session)

namespace Exec

variable {ε δ α β : Type}

/-- Run an operation: what it came to, and the session after it. -/
def apply (x : Exec ε α) (σ : Session) : Except ε α × Session := x.run.run σ

def state : Exec ε State := do
  return (← get).state

def setState (s : State) : Exec ε Unit := modify fun σ => { σ with state := s }

def setStack (stack : List Frame) : Exec ε Unit :=
  modify fun σ => { σ with state := { σ.state with stack } }

def note (e : Event) : Exec ε Unit := modify fun σ => { σ with events := e :: σ.events }

def record (r : LiteralRequest) : Exec ε Unit :=
  modify fun σ => { σ with requests := r :: σ.requests }

/-- Go on with the outcome of an operation, whether it failed or not. -/
def attempt (x : Exec ε α) : Exec δ (Except ε α) := ExceptT.mk (Except.ok <$> x.run)

/-- The same operation with its failures named anew. -/
def mapError (f : ε → δ) (x : Exec ε α) : Exec δ α := ExceptT.adapt f x

@[simp] theorem apply_pure (a : α) (σ : Session) : (pure a : Exec ε α).apply σ = (.ok a, σ) := rfl

@[simp] theorem apply_throw (e : ε) (σ : Session) :
    (throw e : Exec ε α).apply σ = (.error e, σ) := rfl

/-- A sequence of operations ends with the first that fails. -/
theorem apply_bind (x : Exec ε α) (f : α → Exec ε β) (σ : Session) :
    (x >>= f).apply σ =
      match x.apply σ with
      | (.ok a, τ) => (f a).apply τ
      | (.error e, τ) => (.error e, τ) := by
  unfold apply
  rw [ExceptT.run_bind, StateT.run_bind]
  rcases x.run.run σ with ⟨_ | _, _⟩ <;> rfl

@[simp] theorem apply_liftM (x : Except ε α) (σ : Session) :
    apply (liftM x : Exec ε α) σ = (x, σ) := by
  cases x <;> rfl

@[simp] theorem apply_state (σ : Session) : (state : Exec ε State).apply σ = (.ok σ.state, σ) := rfl

@[simp] theorem apply_setState (s : State) (σ : Session) :
    (setState s : Exec ε Unit).apply σ = (.ok (), { σ with state := s }) := rfl

@[simp] theorem apply_setStack (stack : List Frame) (σ : Session) :
    (setStack stack : Exec ε Unit).apply σ =
      (.ok (), { σ with state := { σ.state with stack } }) := rfl

@[simp] theorem apply_note (e : Event) (σ : Session) :
    (note e : Exec ε Unit).apply σ = (.ok (), { σ with events := e :: σ.events }) := rfl

@[simp] theorem apply_record (r : LiteralRequest) (σ : Session) :
    (record r : Exec ε Unit).apply σ = (.ok (), { σ with requests := r :: σ.requests }) := rfl

@[simp] theorem apply_attempt (x : Exec ε α) (σ : Session) :
    (attempt x : Exec δ (Except ε α)).apply σ = (.ok (x.apply σ).1, (x.apply σ).2) := rfl

@[simp] theorem apply_mapError (f : ε → δ) (x : Exec ε α) (σ : Session) :
    (mapError f x).apply σ = ((x.apply σ).1.mapError f, (x.apply σ).2) := rfl

end Exec

end SymbolicBytecode

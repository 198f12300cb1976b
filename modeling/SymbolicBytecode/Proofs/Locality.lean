import Mathlib
import SymbolicBytecode.Proofs.ThrowingCalls

/-!
# What initialization learns from the oracle

The oracle acts on the initialization of a class by its answers alone. `Exec.Tracks` compares an
operation with the same operation under another oracle: they come to the same end, unless there is
a question that both have asked, after the same questions before, and that the oracles answer
differently.
-/
namespace SymbolicBytecode

open Session (ThrowChange StoreChange)

variable {o o' : Oracle} {policy : InitializationPolicy}

/-- From the questions at the start on, the two series of questions go together up to one that the
oracles answer differently. All series have the latest question first. -/
def Oracle.Part (o o' : Oracle) (start left right : List Query) : Prop :=
  ∃ q earlier, start <:+ earlier ∧ q :: earlier <:+ left ∧ q :: earlier <:+ right ∧
    o.answer earlier q ≠ o'.answer earlier q

theorem Oracle.Part.mono {start start' left left' right right' : List Query}
    (h : o.Part o' start left right) (hstart : start' <:+ start) (hleft : left <:+ left')
    (hright : right <:+ right') : o.Part o' start' left' right' := by
  obtain ⟨q, earlier, hearlier, hasked, hasked', hdiffer⟩ := h
  exact ⟨q, earlier, hstart.trans hearlier, hasked.trans hleft, hasked'.trans hright, hdiffer⟩

namespace Exec

variable {ε δ α β : Type}

/-- The operation asks no question. -/
abbrev Silent (x : Exec ε α) : Prop := MadeOf (fun σ τ => τ.queries = σ.queries) x

theorem Silent.queries_eq {x : Exec ε α} (hx : Silent x) (σ : Session) :
    (x.apply σ).2.queries = σ.queries :=
  Session.inv_of_steps (·.queries = σ.queries) (fun _ _ hstep hρ => hstep.trans hρ) (hx σ) rfl

theorem Silent.of_apply {x : Exec ε α} (hx : Silent x) {σ τ : Session} {r : Except ε α}
    (h : x.apply σ = (r, τ)) : τ.queries = σ.queries := by
  have hqueries := hx.queries_eq σ
  rwa [h] at hqueries

theorem silent_of_apply {x : Exec ε α} (hx : ∀ σ r τ, x.apply σ = (r, τ) → τ.queries = σ.queries) :
    Silent x :=
  fun σ => .single (hx σ _ _ rfl)

theorem note_silent (e : Event) : Silent (note e : Exec ε Unit) := fun _ => .single rfl

theorem insertKlass_silent (className : String) (k : Klass) : Silent (insertKlass className k) :=
  fun _ => .single rfl

theorem createKlass_silent (className : String) : Silent (createKlass className) := by
  refine .bind .state fun s => ?_
  split
  · exact .pure _
  refine .bind (.lift _) fun c => .bind (.lift _) fun _ => ?_
  refine .bind (silent_of_apply fun σ r τ h => ?_) fun fields => ?_
  · exact ((initialValues_makesValues _ _ _ _).allocates h).queries
  · exact (note_silent _).bind fun _ => insertKlass_silent _ _

theorem assumeClassInitialized_silent (className : String) :
    Silent (assumeClassInitialized className) :=
  silent_of_apply fun σ r τ h => by
    obtain ⟨_, -, -, hqueries, -⟩ := assumeClassInitialized_grows h
    exact hqueries

theorem assumeClassNotInitialized_silent (className : String) :
    Silent (assumeClassNotInitialized className) := fun _ => .single rfl

theorem MadeOf.silent {x : Exec ε α} (h : MadeOf StoreChange x) : Silent x := by
  refine h.mono fun σ τ hstep => ?_
  cases hstep with
  | thread hstep => cases hstep <;> rfl
  | statics => rfl

theorem failInitialization_silent (cause : FailureCause) : Silent (failInitialization cause) :=
  ((failInitialization_madeOf cause).refine fun _ _ => ThrowChange.steps).store.silent

/-- The second operation comes to the same end as the first, unless they part at a question. -/
structure Tracks (o o' : Oracle) (x x' : Exec ε α) : Prop where
  left : ∀ σ, σ.queries <:+ (x.apply σ).2.queries
  right : ∀ σ, σ.queries <:+ (x'.apply σ).2.queries
  same_or_part : ∀ σ, x'.apply σ = x.apply σ ∨
    o.Part o' σ.queries (x.apply σ).2.queries (x'.apply σ).2.queries

namespace Tracks

variable {x x' : Exec ε α} {f f' : α → Exec ε β}

theorem of_silent (hx : Silent x) : Tracks o o' x x where
  left σ := by rw [hx.queries_eq]
  right σ := by rw [hx.queries_eq]
  same_or_part _ := .inl rfl

theorem extends_bind (hf : ∀ a σ, σ.queries <:+ ((f a).apply σ).2.queries) (σ : Session) :
    (x.apply σ).2.queries <:+ ((x >>= f).apply σ).2.queries := by
  rw [apply_bind]
  rcases x.apply σ with ⟨e | a, ρ⟩
  · exact List.suffix_rfl
  · exact hf a ρ

theorem bind (hx : Tracks o o' x x') (hf : ∀ a, Tracks o o' (f a) (f' a)) :
    Tracks o o' (x >>= f) (x' >>= f') where
  left σ := (hx.left σ).trans (extends_bind (fun a => (hf a).left) σ)
  right σ := (hx.right σ).trans (extends_bind (fun a => (hf a).right) σ)
  same_or_part σ := by
    rcases hx.same_or_part σ with hsame | hpart
    · rw [apply_bind, apply_bind, hsame]
      have hfirst := hx.left σ
      rcases hr : x.apply σ with ⟨e | a, ρ⟩
      · exact .inl rfl
      · rw [hr] at hfirst
        exact ((hf a).same_or_part ρ).imp_right fun hpart =>
          hpart.mono hfirst List.suffix_rfl List.suffix_rfl
    · exact .inr (hpart.mono List.suffix_rfl (extends_bind (fun a => (hf a).left) σ)
        (extends_bind (fun a => (hf a).right) σ))

theorem mapError (hx : Tracks o o' x x') (g : ε → δ) :
    Tracks o o' (Exec.mapError g x) (Exec.mapError g x') where
  left := hx.left
  right := hx.right
  same_or_part σ := (hx.same_or_part σ).imp_left fun hsame => by
    rw [apply_mapError, apply_mapError, hsame]

theorem attempt (hx : Tracks o o' x x') :
    Tracks o o' (Exec.attempt x : Exec δ (Except ε α)) (Exec.attempt x') where
  left := hx.left
  right := hx.right
  same_or_part σ := (hx.same_or_part σ).imp_left fun hsame => by
    rw [apply_attempt, apply_attempt, hsame]

end Tracks

theorem ask_tracks (o o' : Oracle) (className : String) :
    Tracks o o' (ask o className) (ask o' className) where
  left σ := by
    rw [apply_ask]
    exact List.suffix_cons _ _
  right σ := by
    rw [apply_ask]
    exact List.suffix_cons _ _
  same_or_part σ := by
    rw [apply_ask, apply_ask]
    by_cases hanswer : o.answer σ.queries ⟨className, σ.state.path⟩ =
        o'.answer σ.queries ⟨className, σ.state.path⟩
    · exact .inl (by rw [hanswer])
    · exact .inr ⟨_, _, List.suffix_rfl, List.suffix_rfl, List.suffix_rfl, hanswer⟩

theorem decideInitialized_tracks (o o' : Oracle) (className : String) :
    Tracks o o' (decideInitialized policy o className) (decideInitialized policy o' className) := by
  refine .bind (.of_silent .state) fun s => ?_
  split
  · exact .of_silent ((note_silent _).bind fun _ => .pure _)
  · exact ask_tracks o o' className

theorem needsInitialization_tracks (o o' : Oracle) (className : String) :
    Tracks o o' (needsInitialization policy o className)
      (needsInitialization policy o' className) := by
  refine .bind (.of_silent .state) fun s => ?_
  split
  · exact .of_silent (.pure _)
  refine .bind ((decideInitialized_tracks o o' className).mapError _) fun initialized => ?_
  split
  · exact .of_silent ((note_silent _).bind fun _ =>
      .bind ((assumeClassInitialized_silent _).mapError _) fun _ => .pure _)
  · exact .of_silent ((note_silent _).bind fun _ =>
      .bind ((assumeClassNotInitialized_silent _).mapError _) fun _ => .pure _)

theorem stage_tracks (o o' : Oracle) (created names : List String) :
    Tracks o o' (stage policy o created names) (stage policy o' created names) := by
  induction names generalizing created with
  | nil => exact .of_silent (.pure _)
  | cons name rest ih =>
    have habove (created : List String) : Tracks o o' (stageAbove policy o created rest)
        (stageAbove policy o' created rest) := by
      cases rest with
      | nil => exact .of_silent (.pure _)
      | cons superName rest =>
        refine .bind ((needsInitialization_tracks o o' superName).mapError _) fun needed => ?_
        split
        · exact ih created
        · exact .of_silent (.pure _)
    rw [stage_cons, stage_cons]
    refine .bind (.of_silent ((createKlass_silent name).mapError _)) fun _ => ?_
    refine .bind (habove _) fun above => .of_silent (.bind .state fun s => ?_)
    exact .bind (.mapError (.lift _) _) fun frame => (note_silent _).bind fun _ => .pure _

theorem initializeClass_tracks (o o' : Oracle) (className : String) :
    Tracks o o' (initializeClass policy o className) (initializeClass policy o' className) := by
  refine .bind (.of_silent .state) fun s => ?_
  split
  · exact .of_silent (.pure _)
  refine .bind (decideInitialized_tracks o o' className) fun initialized => ?_
  split
  · refine .of_silent ((note_silent _).bind fun _ => ?_)
    refine (assumeClassInitialized_silent className).attempt.bind fun r => ?_
    split
    · exact .pure _
    · exact failInitialization_silent _
  refine .bind (.of_silent (note_silent _)) fun _ => ?_
  refine .bind (.of_silent ((assumeClassNotInitialized_silent className).mapError _)) fun _ => ?_
  refine .bind (.attempt ((stage_tracks o o' _ _).bind fun staged =>
    .of_silent ((commit_stores _ _ _).silent))) fun outcome => .of_silent ?_
  split
  · exact .pure _
  · exact ((rollBack_stores _ _ _).silent.mapError _).bind fun _ => failInitialization_silent _

end Exec

end SymbolicBytecode

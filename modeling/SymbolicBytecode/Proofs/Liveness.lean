import Mathlib
import SymbolicBytecode.Proofs.Frames
import SymbolicBytecode.Proofs.Resolutions

/-!
# Live references

Operations move values between frames, objects, static entries and assumptions, and some of them
fail halfway. As long as the values that they are given are live, no reference dangles at any point
on the way: each kind of step keeps `State.NoDangling`, and so does every run.
-/
namespace SymbolicBytecode

open Session (ValueChange ThrowChange HeapChange EntryChange InitializationChange CallChange
  EngineChange)

/-- A reference to an object of known class is live. -/
theorem State.live_of_classOf {s : State} {ref : Reference} {className : String}
    (h : s.classOf ref = .ok className) : ref.Live s.heap := by
  cases ref with
  | symbolic => trivial
  | concrete position =>
    obtain ⟨o, hobject, -⟩ := except_bind_ok_iff.1 h
    obtain ⟨p, hposition, hfind⟩ := except_bind_ok_iff.1 hobject
    cases hposition
    exact Heap.exists_get?_iff.1 ⟨o, Heap.get?_of_find hfind⟩

namespace Frame

variable {heap : Heap} {f : Frame}

theorem Live.push {v : Value} (hlive : f.Live heap) (hv : v.Live heap) : (f.push v).Live heap where
  locals := hlive.locals
  operands := List.forall_mem_cons.2 ⟨hv, hlive.operands⟩

theorem Live.drop (hlive : f.Live heap) (count : Nat) :
    Frame.Live heap { f with operands := f.operands.drop count } where
  locals := hlive.locals
  operands v hv := hlive.operands v (List.mem_of_mem_drop hv)

theorem Live.setPc {g : Frame} {pc : Nat} (hlive : f.Live heap) (h : f.setPc pc = .ok g) :
    g.Live heap := by
  unfold Frame.setPc at h
  split at h
  · cases h
    exact ⟨hlive.locals, hlive.operands⟩
  · cases h

theorem Begins.live {signature : Signature} {owner : ClassFile} {args : List Value}
    (h : f.Begins signature owner args) (hargs : ∀ v ∈ args, v.Live heap) : f.Live heap where
  locals v hv := hargs v (h.locals v hv)
  operands := by simp [h.operands_eq]

end Frame

theorem IsInitializerFrame.live {h : Hierarchy} {className : String} {f : Frame} {heap : Heap}
    (hf : IsInitializerFrame h className f) : f.Live heap := by
  obtain ⟨c, m, code, -, -, -, -, rfl⟩ := hf
  exact ⟨by simp, by simp⟩

theorem resuming_live {heap : Heap} {stack : List Frame} (offset : Nat)
    (hlive : ∀ f ∈ stack, f.Live heap) : ∀ f ∈ resuming offset stack, f.Live heap := by
  cases stack with
  | nil => exact hlive
  | cons g rest =>
    obtain ⟨hg, hrest⟩ := List.forall_mem_cons.1 hlive
    exact List.forall_mem_cons.2 ⟨⟨hg.locals, hg.operands⟩, hrest⟩

namespace State.NoDangling

variable {s : State}

theorem storing (hs : s.NoDangling) {p : Nat} {o : HeapObject} (hp : p < s.heap.size)
    (hvalues : ∀ v ∈ o.values, v.Live s.heap) :
    State.NoDangling { s with heap := s.heap.set p o } := by
  have hle : s.heap.size ≤ (s.heap.set p o).size := (Heap.size_set _ _ _).ge
  refine hs.withHeap hle fun position o' hget v hv => ?_
  rw [Heap.get?_set o hp] at hget
  split at hget
  · cases hget
    exact (hvalues v hv).mono hle
  · exact (hs.objects position o' hget v hv).mono hle

theorem withString (hs : s.NoDangling) (text : String) {p : Nat} (hp : p < s.heap.size) :
    State.NoDangling { s with strings := s.strings.insert text p } :=
  { hs with
    strings := fun position hposition => by
      rcases Table.mem_values_insert hposition with hold | rfl
      · exact hs.strings position hold
      · exact hp }

theorem withKlass (hs : s.NoDangling) (name : String) {k : Klass}
    (hk : ∀ v ∈ k.fields.values, v.Live s.heap) :
    State.NoDangling { s with statics := s.statics.insert name k } :=
  { hs with
    statics := fun other l hget => by
      rw [Table.get?_insert] at hget
      split at hget
      · cases hget
        exact hk
      · exact hs.statics other l hget }

theorem withStatus (hs : s.NoDangling) {name : String} {k : Klass} (status : KlassStatus)
    (hget : s.statics.get? name = some k) :
    State.NoDangling { s with statics := s.statics.insert name { k with status } } :=
  hs.withKlass name (hs.statics name k hget)

theorem withoutKlass (hs : s.NoDangling) (name : String) :
    State.NoDangling { s with statics := s.statics.erase name } :=
  { hs with
    statics := fun other l hget => by
      rw [Table.get?_erase] at hget
      split at hget
      · cases hget
      · exact hs.statics other l hget }

theorem finish (hs : s.NoDangling) (method : Signature) :
    State.NoDangling { s with statics := method.finish s.statics } := by
  unfold Signature.finish
  split
  · split
    · next k hget => exact hs.withStatus .initialized hget
    · exact hs
  · exact hs

theorem assuming (hs : s.NoDangling) {c : Clause} (hc : ∀ id position,
      c.resolves? = some (id, .position position) → position < s.heap.size) :
    State.NoDangling { s with path := s.path.push c } :=
  { hs with
    resolutions := fun d hd id position hresolves => by
      rcases List.mem_append.1 hd with hold | hnew
      · exact hs.resolutions d hold id position hresolves
      · rw [List.mem_singleton.1 hnew] at hresolves
        exact hc id position hresolves }

end State.NoDangling

namespace Exec

variable {α : Type} {σ τ : Session}

section Thread

/-- The frame stays live, whatever is done to it. -/
def KeepsLive (heap : Heap) (g : Frame → Except Fault (α × Frame)) : Prop :=
  ∀ f r, f.Live heap → g f = .ok r → r.2.Live heap

theorem updateFrame_noDangling {g : Frame → Except Fault (α × Frame)} (hσ : σ.state.NoDangling)
    (hg : KeepsLive σ.state.heap g) : ((updateFrame g).apply σ).2.state.NoDangling := by
  rcases updateFrame_cases g σ with ⟨e, hrun⟩ | ⟨f, rest, r, hstack, hr, hrun⟩
  · rwa [hrun]
  · rw [hrun]
    have hlive := hσ.frames
    rw [hstack] at hlive
    obtain ⟨hf, hrest⟩ := List.forall_mem_cons.1 hlive
    exact hσ.withStack (List.forall_mem_cons.2 ⟨hg f r hf hr, hrest⟩)

theorem pushOperand_noDangling {v : Value} (hσ : σ.state.NoDangling) (hv : v.Live σ.state.heap) :
    ((pushOperand v).apply σ).2.state.NoDangling := by
  refine updateFrame_noDangling hσ fun f r hf hr => ?_
  cases hr
  exact hf.push hv

theorem pushPrepared_noDangling {frame : Frame} (offset : Nat) (hσ : σ.state.NoDangling)
    (hframe : frame.Live σ.state.heap) :
    ((pushPrepared frame offset).apply σ).2.state.NoDangling := by
  rw [apply_pushPrepared_resuming]
  exact hσ.withStack (List.forall_mem_cons.2 ⟨hframe, resuming_live offset hσ.frames⟩)

theorem pushFrame_noDangling {signature : Signature} {isRoot : Bool} {offset : Nat}
    {args : List Value} (hσ : σ.state.NoDangling) (hargs : ∀ v ∈ args, v.Live σ.state.heap) :
    ((pushFrame signature isRoot offset args).apply σ).2.state.NoDangling := by
  rcases pushFrame_cases signature isRoot offset args σ with
    ⟨e, hrun⟩ | ⟨c, m, frame, -, -, hcreate, hrun⟩
  · rwa [hrun]
  · rw [hrun]
    have hframe := (Frame.create_begins hcreate).live hargs
    split
    · exact hσ.withStack (List.forall_mem_cons.2 ⟨hframe, hσ.frames⟩)
    · exact pushPrepared_noDangling offset hσ hframe

theorem popFrame_noDangling (hσ : σ.state.NoDangling) :
    (popFrame.apply σ).2.state.NoDangling := by
  rw [popFrame, apply_state_bind]
  have hlive := hσ.frames
  split
  · exact hσ
  · next frame rest hstack =>
    rw [hstack] at hlive
    exact hσ.withStack (List.forall_mem_cons.1 hlive).2

theorem completeFrame_noDangling {result : Option Value} (hσ : σ.state.NoDangling)
    (hresult : ∀ v, result = some v → v.Live σ.state.heap) :
    ((completeFrame result).apply σ).2.state.NoDangling := by
  have hlive := hσ.frames
  rcases hstack : σ.state.stack with _ | ⟨f, _ | ⟨caller, rest⟩⟩
  · rwa [apply_completeFrame_nil result hstack]
  · rw [apply_completeFrame_root result hstack]
    exact (hσ.finish f.signature).withStack (by simp)
  · rw [hstack] at hlive
    obtain ⟨hcaller, hrest⟩ := List.forall_mem_cons.1 (List.forall_mem_cons.1 hlive).2
    have hdone := hσ.finish f.signature
    rw [apply_completeFrame result hstack]
    dsimp only
    cases hnext : caller.setPc caller.returnPc with
    | error e => exact hdone.withStack (List.forall_mem_cons.2 ⟨hcaller, hrest⟩)
    | ok next =>
      refine hdone.withStack (List.forall_mem_cons.2 ⟨?_, hrest⟩)
      have hnext := hcaller.setPc hnext
      cases result with
      | none => exact hnext
      | some v => exact hnext.push (hresult v rfl)

theorem callMethod_noDangling (count : Nat) (signature : Signature) (offset : Nat)
    (hσ : σ.state.NoDangling) :
    ((callMethod count signature offset).apply σ).2.state.NoDangling := by
  rw [callMethod, apply_bind]
  rcases popOperands_cases count σ with ⟨e, hpop⟩ | ⟨f, rest, hstack, hpop⟩
  · rwa [hpop]
  · have hlive := hσ.frames
    rw [hstack] at hlive
    obtain ⟨hf, hrest⟩ := List.forall_mem_cons.1 hlive
    rw [hpop]
    refine pushFrame_noDangling (hσ.withStack (List.forall_mem_cons.2 ⟨hf.drop count, hrest⟩))
      fun v hv => ?_
    exact hf.operands v (List.mem_of_mem_take (List.mem_reverse.1 hv))

theorem throwFrom_noDangling (ref : Reference) (search : HandlerSearch)
    (hσ : σ.state.NoDangling) : ((throwFrom ref search).apply σ).2.state.NoDangling := by
  rcases throwFrom_unwinds ref search σ with ⟨e, hrun⟩ | ⟨thrown, uncaught, hclass, hends, hrun⟩
  · rwa [hrun]
  · rw [hrun]
    have href := State.live_of_classOf hclass
    refine hσ.withThread ?_ fun other hother => ?_
    · rcases unwind_stack σ.state.hierarchy thrown ref search σ.state.stack with
        hnone | ⟨f, g, below, hsuffix, hstack, hg⟩
      · simp [hnone]
      · have hlive := fun f hf => hσ.frames f (hsuffix.subset hf)
        obtain ⟨hf, hbelow⟩ := List.forall_mem_cons.1 hlive
        rw [hstack]
        refine List.forall_mem_cons.2 ⟨?_, hbelow⟩
        rcases hg with rfl | ⟨pc, rfl⟩
        · exact hf
        · exact ⟨hf.locals, List.forall_mem_singleton.2 href⟩
    · rcases hends with rfl | rfl
      · exact hσ.uncaught other hother
      · cases hother
        exact href

theorem raise_noDangling (t : Throwable) (hσ : σ.state.NoDangling) :
    ((raise t).apply σ).2.state.NoDangling := by
  rcases raise_cases t σ with hrun | ⟨o, ⟨fields, -, rfl⟩, hrun⟩
  · rwa [hrun]
  · rw [hrun]
    refine pushOperand_noDangling (hσ.adding (HeapObject.ofFields_isPlain _ _)) ?_
    change σ.state.heap.size < (σ.state.heap.add _).size
    rw [Heap.size_add]
    exact Nat.lt_succ_self _

end Thread

section Statics

theorem charArray_isPlain (text : String) : (charArray text).IsPlain := by
  intro ref href
  have hunit := List.mem_of_mem_take (show Value.reference ref ∈ List.take _ _ from href)
  simp at hunit

theorem mem_literalObject {fields : Table FieldType} {chars : Nat} {v : Value}
    (hv : v ∈ (literalObject fields chars).values) :
    (∀ ref, v ≠ .reference ref) ∨ v = .reference (.concrete chars) := by
  refine (Table.mem_values_insert hv).imp_left fun hold ref href => ?_
  exact HeapObject.ofFields_isPlain stringClass fields ref (href ▸ hold)

/-- The string object of a literal is in the heap, and so are its characters. -/
theorem Interns.live {text : String} {r : Except Fault Nat} (h : Interns text σ r τ)
    (hσ : σ.state.NoDangling) :
    τ.state.NoDangling ∧ ∀ p, r = .ok p → p < τ.state.heap.size := by
  have hchars := hσ.adding (charArray_isPlain text)
  cases h with
  | @known p hget =>
    refine ⟨hσ, fun q hq => ?_⟩
    cases hq
    exact hσ.strings p (List.mem_map_of_mem ((Table.mem_entries_iff _ text p).2 hget))
  | refused => exact ⟨hσ, by simp⟩
  | half => exact ⟨hchars, by simp⟩
  | @bare _ fields =>
    exact ⟨hchars.adding (HeapObject.ofFields_isPlain stringClass fields), by simp⟩
  | @made fields =>
    have hboth := hchars.adding (HeapObject.ofFields_isPlain stringClass fields)
    have hsize : ((σ.state.heap.add (charArray text)).add
        (.ofFields stringClass fields)).size = σ.state.heap.size + 2 := by
      rw [Heap.size_add, Heap.size_add]
    -- the string refers to its characters only after both objects are in the heap
    have hset := hboth.storing (p := σ.state.heap.size + 1)
      (o := literalObject fields σ.state.heap.size) (by rw [hsize]; omega) fun v hv => by
        rcases mem_literalObject hv with hplain | rfl
        · exact Value.live_of_ne_reference hplain
        · change σ.state.heap.size < _
          rw [hsize]
          omega
    have hlast : σ.state.heap.size + 1 < (((σ.state.heap.add (charArray text)).add
        (.ofFields stringClass fields)).set (σ.state.heap.size + 1)
          (literalObject fields σ.state.heap.size)).size := by
      rw [Heap.size_set, hsize]
      omega
    refine ⟨hset.withString text hlast, fun q hq => ?_⟩
    cases hq
    exact hlast

end Statics

end Exec

theorem Session.ValueChange.noDangling {σ τ : Session} (h : ValueChange σ τ)
    (hσ : σ.state.NoDangling) : τ.state.NoDangling := by
  cases h with
  | intern hrun =>
    obtain ⟨ρ, hinterns, rfl⟩ := Exec.internString_interns hrun
    exact (hinterns.live hσ).1
  | symbol => exact { hσ with }

namespace Exec

variable {σ τ : Session} {c : ClassFile} {symbolic : Bool}

theorem initialValue_live {f : Field} {type : FieldType} {v : Value} (hσ : σ.state.NoDangling)
    (h : (initialValue c symbolic f type).apply σ = (.ok v, τ)) : v.Live τ.state.heap := by
  unfold initialValue at h
  split at h
  · obtain ⟨literal, -, h⟩ := apply_lift_bind_ok_iff.1 h
    cases literal with
    | string text =>
      obtain ⟨p, ρ, hintern, h⟩ := apply_bind_ok_iff.1 h
      obtain ⟨π, hinterns, rfl⟩ := internString_interns hintern
      cases h
      exact (hinterns.live hσ).2 p rfl
    | _ =>
      cases h
      trivial
  split at h
  · unfold freshValue at h
    split at h
    · obtain ⟨ref, ρ, -, h⟩ := apply_bind_ok_iff.1 h
      cases h
      trivial
    · obtain ⟨symbol, ρ, -, h⟩ := apply_bind_ok_iff.1 h
      cases h
      trivial
  · cases h
    exact Value.live_of_ne_reference type.defaultValue_ne_reference

theorem initialValues_live {fields : List Field} {found values : Table Value}
    (hσ : σ.state.NoDangling) (hfound : ∀ v ∈ found.values, v.Live σ.state.heap)
    (h : (initialValues c symbolic found fields).apply σ = (.ok values, τ)) :
    τ.state.NoDangling ∧ ∀ v ∈ values.values, v.Live τ.state.heap := by
  induction fields generalizing found σ with
  | nil =>
    cases h
    exact ⟨hσ, hfound⟩
  | cons f rest ih =>
    obtain ⟨type, -, h⟩ := apply_lift_bind_ok_iff.1 h
    obtain ⟨v, ρ, hvalue, hrest⟩ := apply_bind_ok_iff.1 h
    have hmade := initialValue_madeOf c symbolic f type
    have hρ := hmade.preserves_of_apply (·.state.NoDangling) (fun _ _ => ValueChange.noDangling)
      hσ hvalue
    have hle := (Session.continues_of_steps (hmade.of_apply hvalue)).size_le
    refine ih hρ (fun w hw => ?_) hrest
    rcases Table.mem_values_insert hw with hold | rfl
    · exact (hfound w hold).mono hle
    · exact initialValue_live hσ hvalue

theorem Enters.noDangling {name : String} {enter : Table Value → Session → Session}
    (h : Enters symbolic name enter σ τ) (hσ : σ.state.NoDangling)
    (henter : ∀ values ρ, ρ.state.NoDangling → (∀ v ∈ values.values, v.Live ρ.state.heap) →
      (enter values ρ).state.NoDangling) : τ.state.NoDangling := by
  cases h with
  | present => exact hσ
  | refused _ hsteps =>
    exact Session.inv_of_steps (·.state.NoDangling) (fun _ _ => ValueChange.noDangling) hsteps hσ
  | entered _ _ _ hvalues =>
    have hnone : ∀ v ∈ (∅ : Table Value).values, v.Live σ.state.heap := by
      simp [Table.values, EmptyCollection.emptyCollection, Table.empty]
    obtain ⟨hρ, hlive⟩ := initialValues_live hσ hnone hvalues
    exact henter _ _ hρ hlive

theorem createKlass_noDangling (name : String) (hσ : σ.state.NoDangling) :
    ((createKlass name).apply σ).2.state.NoDangling :=
  (createKlass_enters name σ).noDangling hσ fun _ _ hρ hlive => hρ.withKlass name hlive

end Exec

namespace Session

variable {given : Value → Prop} {policy : InitializationPolicy} {strategies : Strategies}
  {σ τ : Session}

theorem ThrowChange.noDangling (h : ThrowChange σ τ) (hσ : σ.state.NoDangling) :
    τ.state.NoDangling := by
  cases h with
  | report => exact hσ
  | raise t => exact Exec.raise_noDangling t hσ
  | unwind ref search => exact Exec.throwFrom_noDangling ref search hσ

theorem HeapChange.noDangling (h : HeapChange given σ τ) (hσ : σ.state.NoDangling)
    (hgiven : ∀ v, given v → v.Live σ.state.heap) : τ.state.NoDangling := by
  cases h with
  | allocate hplain => exact hσ.adding hplain
  | @store p o o' hget _ hvalues =>
    refine hσ.storing (Heap.exists_get?_iff.1 ⟨o, hget⟩) fun v hv => ?_
    exact (hvalues v hv).elim (hσ.objects p o hget v) (hgiven v)
  | null => exact hσ.assuming (by simp [Clause.resolves?])
  | identify _ hlive =>
    refine hσ.assuming fun id position hresolves => ?_
    cases hresolves
    exact hlive
  | expand hplain =>
    refine (hσ.adding hplain).assuming fun id position hresolves => ?_
    cases hresolves
    exact (Heap.size_add _ _).symm ▸ Nat.lt_succ_self _

theorem EntryChange.noDangling (h : EntryChange σ τ) (hσ : σ.state.NoDangling) :
    τ.state.NoDangling := by
  cases h with
  | report => exact hσ
  | ask => exact hσ
  | @declare name =>
    have hassumed : (σ.assuming (.notInitialized name)).state.NoDangling :=
      hσ.assuming (by simp [Clause.resolves?])
    exact Exec.createKlass_noDangling name hassumed
  | @presume c hget =>
    refine (Exec.assumeOneInitialized_enters hget).noDangling hσ fun values ρ hρ hlive => ?_
    exact (hρ.withKlass c.name hlive).assuming (by simp [Clause.resolves?])

theorem InitializationChange.noDangling (h : InitializationChange policy σ τ)
    (hσ : σ.state.NoDangling) : τ.state.NoDangling := by
  cases h with
  | entry h => exact h.noDangling hσ
  | throw h => exact h.noDangling hσ
  | start hget _ hframe =>
    refine (hσ.withStatus .initializing hget).withStack ?_
    rw [resumingHere_eq]
    exact List.forall_mem_cons.2 ⟨hframe.live, resuming_live 0 hσ.frames⟩
  | settle hget => exact hσ.withStatus .initialized hget
  | @withdraw name => exact hσ.withoutKlass name

theorem CallChange.noDangling (h : CallChange strategies σ τ) (hσ : σ.state.NoDangling) :
    τ.state.NoDangling := by
  cases h with
  | throw h => exact h.noDangling hσ
  | patch pc opcode =>
    refine Exec.updateFrame_noDangling hσ fun f r hf hr => ?_
    obtain ⟨g, hpatch, hr⟩ := except_bind_ok_iff.1 hr
    cases hr
    rw [Frame.patch_ok hpatch]
    exact ⟨hf.locals, hf.operands⟩
  | call count signature offset => exact Exec.callMethod_noDangling count signature offset hσ

theorem EngineChange.noDangling (h : EngineChange policy strategies σ τ)
    (hσ : σ.state.NoDangling) : τ.state.NoDangling := by
  cases h with
  | initialization h => exact h.noDangling hσ
  | call h => exact h.noDangling hσ

end Session

namespace Operation

variable {engine : Engine} {op : Operation} {σ τ : Session}

/-- The values that an operation is given are live. -/
def TakesLive (heap : Heap) : Operation → Prop
  | setStatic _ _ v | setField _ _ v | setElement _ _ v => v.Live heap
  | updateFrame f => Exec.KeepsLive heap f
  | pushPrepared frame _ => frame.Live heap
  | pushFrame _ _ _ args => ∀ v ∈ args, v.Live heap
  | completeFrame result => ∀ v, result = some v → v.Live heap
  | _ => True

theorem TakesLive.of_gives {heap : Heap} (hop : op.TakesLive heap) {v : Value}
    (hv : op.Gives v) : v.Live heap := by
  cases op with
  | setField | setElement =>
    cases hv
    exact hop
  | _ => cases hv

theorem elementary_noDangling (hop : op.isElementary) (hlive : op.TakesLive σ.state.heap)
    (hσ : σ.state.NoDangling) : (op.after engine σ).state.NoDangling := by
  cases op with
  | createKlass className => exact Exec.createKlass_noDangling className hσ
  | removeKlass className => exact hσ.withoutKlass className
  | setKlassStatus className status =>
    rw [after, Exec.setKlassStatus, Exec.apply_state_bind, State.findKlass]
    split
    · next k hget => exact hσ.withStatus status hget
    · exact hσ
  | assumeClassNotInitialized className => exact hσ.assuming (by simp [Clause.resolves?])
  | setStatic className field v =>
    rw [after, Exec.setStatic, Exec.apply_state_bind, State.findKlass]
    split
    · next k hget =>
      change (Exec.apply (if _ then _ else _) _).2.state.NoDangling
      split
      · refine hσ.withKlass className fun w hw => ?_
        rcases Table.mem_values_insert hw with hold | rfl
        · exact hσ.statics className k hget w hold
        · exact hlive
      · exact hσ
    · exact hσ
  | updateFrame f => exact Exec.updateFrame_noDangling hσ hlive
  | popOperands count =>
    refine Exec.updateFrame_noDangling hσ fun f r hf hr => ?_
    rw [Frame.pop] at hr
    split at hr
    · cases hr
      exact hf.drop count
    · cases hr
  | pushPrepared frame returnOffset => exact Exec.pushPrepared_noDangling returnOffset hσ hlive
  | pushFrame signature isRoot returnOffset args => exact Exec.pushFrame_noDangling hσ hlive
  | popFrame => exact Exec.popFrame_noDangling hσ
  | completeFrame result => exact Exec.completeFrame_noDangling hσ hlive
  | _ => cases hop

theorem Move.size_le (h : op.Move engine σ τ) : σ.state.heap.size ≤ τ.state.heap.size := by
  rcases h.changes (fun _ => rfl) (fun _ => rfl) with hsteps | ⟨className, o, -, rfl⟩
  · refine Session.inv_of_steps (σ.state.heap.size ≤ ·.state.heap.size)
      (fun ρ π hchange hle => ?_) hsteps (Nat.le_refl _)
    obtain ⟨⟨added, hcontinues⟩, -⟩ := Session.Change.continues hchange
    exact Nat.le_trans hle hcontinues.size_le
  · exact (σ.adding_continues o).size_le

theorem Move.noDangling (h : op.Move engine σ τ) (hother : ¬op.isElementary)
    (hgiven : ∀ v, op.Gives v → v.Live σ.state.heap) (hσ : σ.state.NoDangling) :
    τ.state.NoDangling := by
  cases h with
  | elementary hop => exact absurd hop hother
  | exception _ hmakes =>
    obtain ⟨fields, -, rfl⟩ := hmakes
    exact hσ.adding (HeapObject.ofFields_isPlain _ _)
  | heap h => exact h.noDangling hσ hgiven
  | value h => exact h.noDangling hσ
  | engine h => exact h.noDangling hσ

theorem after_noDangling (hlive : op.TakesLive σ.state.heap) (hσ : σ.state.NoDangling) :
    (op.after engine σ).state.NoDangling := by
  by_cases hop : op.isElementary
  · exact elementary_noDangling hop hlive hσ
  · -- the value that is stored stays live while the operation goes on
    have hkept := Session.inv_of_steps
      (fun τ => τ.state.NoDangling ∧ ∀ v, op.Gives v → v.Live τ.state.heap)
      (fun ρ τ (hmove : op.Move engine ρ τ) hρ =>
        ⟨hmove.noDangling hop hρ.2 hρ.1, fun v hv => (hρ.2 v hv).mono hmove.size_le⟩)
      (after_moves engine op σ) ⟨hσ, fun v hv => hlive.of_gives hv⟩
    exact hkept.1

end Operation

/-- The operations of a run are given live values, each at its time. -/
def Session.TakesLive (σ : Session) : List (Engine × Operation) → Prop
  | [] => True
  | (engine, op) :: rest =>
    op.TakesLive σ.state.heap ∧ (op.after engine σ).TakesLive rest

theorem Session.run_noDangling {σ : Session} {ops : List (Engine × Operation)}
    (hops : σ.TakesLive ops) (hσ : σ.state.NoDangling) : (σ.run ops).state.NoDangling := by
  induction ops generalizing σ with
  | nil => exact hσ
  | cons entry rest ih =>
    obtain ⟨hfirst, hrest⟩ := hops
    exact ih hrest (Operation.after_noDangling hfirst hσ)

namespace Engine

theorem initialState_noDangling {engine : Engine} {h : Hierarchy} {root : Signature}
    {args : List Value} {s : State} (hargs : ∀ v ∈ args, v.Live Heap.empty)
    (hs : engine.initialState h root args = .ok s) : s.NoDangling := by
  have hpushed : ((Exec.pushFrame root true 0 args).apply
      (.start (.create h engine.heapLimit engine.host))).2.state.NoDangling :=
    Exec.pushFrame_noDangling (.create h engine.heapLimit engine.host) hargs
  rw [initialState] at hs
  split at hs
  · next hrun =>
    cases hs
    rwa [hrun] at hpushed
  · cases hs

/-- **No reference dangles.** The state that an execution begins with has no dangling reference if
its arguments have none. From then on no operation leaves one, whether it fails or not, as long as
the values that it is given are live at that time. -/
theorem keeps_references_live (engine : Engine) :
    (∀ h root args s, (∀ v ∈ args, v.Live Heap.empty) →
      engine.initialState h root args = .ok s → s.NoDangling) ∧
    ∀ σ : Session, σ.state.NoDangling →
      (∀ op : Operation, op.TakesLive σ.state.heap → (op.after engine σ).state.NoDangling) ∧
      (∀ v, v.Live σ.state.heap → ((Exec.pushOperand v).apply σ).2.state.NoDangling) ∧
      ∀ ops, σ.TakesLive ops → (σ.run ops).state.NoDangling := by
  refine ⟨fun h root args s => initialState_noDangling, fun σ hσ => ⟨fun op hlive => ?_, ?_, ?_⟩⟩
  · exact Operation.after_noDangling hlive hσ
  · exact fun v hv => Exec.pushOperand_noDangling hσ hv
  · exact fun ops hops => Session.run_noDangling hops hσ

def bodilessEngine : Engine := ⟨some 1, .ample, ⟨false, false⟩, .fixed false, .standard⟩

/-- The object is pushed once more and the call is made. It fails after its receiver has been taken
off the operand stack, and ends the thread with a new exception. -/
def bodilessOperations : List (Engine × Operation) :=
  [(bodilessEngine, .updateFrame fun f => .ok ((), f.push (.reference (.concrete 0)))),
    (bodilessEngine, .step)]

theorem bodilessOperations_live :
    bodilessCall.NoDangling ∧ (Session.start bodilessCall).TakesLive bodilessOperations ∧
    ((Session.start bodilessCall).run bodilessOperations).state.uncaught = some (.concrete 1) ∧
    ((Session.start bodilessCall).run bodilessOperations).state.NoDangling := by
  have hops : (Session.start bodilessCall).TakesLive bodilessOperations := by
    refine ⟨fun f r hf hr => ?_, trivial, trivial⟩
    cases hr
    exact hf.push (Nat.zero_lt_one : 0 < (Session.start bodilessCall).state.heap.size)
  have huncaught : ((Session.start bodilessCall).run bodilessOperations).state.uncaught =
      some (.concrete 1) := by
    decide +kernel
  refine ⟨bodilessCall_noDangling, hops, huncaught, ?_⟩
  exact ((keeps_references_live bodilessEngine).2 (.start bodilessCall)
    bodilessCall_noDangling).2.2 bodilessOperations hops

end Engine

end SymbolicBytecode

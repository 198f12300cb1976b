import Mathlib
import SymbolicBytecode.Hierarchy.Bootstrap
import SymbolicBytecode.Proofs.Layouts

/-!
# Hierarchies over the bootstrap classes

Three ways in which a hierarchy can rest on the bootstrap classes, the strongest first:
it was made from them by adding other classes, it has all of them, it has those of the exceptions of
the machine. In each of them the machine knows the layout of the objects it makes by itself.
-/
namespace SymbolicBytecode.Hierarchy

/-- Every class of the other hierarchy is in this one, unchanged. -/
def Includes (h k : Hierarchy) : Prop := ∀ name c, k.get? name = some c → h.get? name = some c

/-- Made from the bootstrap classes by adding classes, none of which takes the place of one. -/
def ExtendsBootstrap (h : Hierarchy) : Prop :=
  ∃ added : List ClassFile,
    (∀ c ∈ added, bootstrap.get? c.name = none) ∧ h = added.foldl Hierarchy.add bootstrap

/-- The exceptions of the machine are known, with their superclasses, as the bootstrap classes have
them. -/
def HasThrowables (h : Hierarchy) : Prop :=
  ∀ (t : Throwable) (chain : List ClassFile), bootstrap.superclassChain t.className = .ok chain →
    ∀ c ∈ chain, h.get? c.name = some c

theorem Includes.refl (h : Hierarchy) : h.Includes h := fun _ _ hget => hget

theorem Includes.foldl_add {h k : Hierarchy} (hk : h.Includes k) {added : List ClassFile}
    (hnew : ∀ c ∈ added, k.get? c.name = none) : (added.foldl Hierarchy.add h).Includes k := by
  induction added generalizing h with
  | nil => exact hk
  | cons d rest ih =>
    apply ih
    · intro name c hget
      have hne : name ≠ d.name := by
        rintro rfl
        rw [hnew d List.mem_cons_self] at hget
        cases hget
      rw [get?_add, if_neg hne]
      exact hk name c hget
    · intro c hc
      exact hnew c (List.mem_cons_of_mem _ hc)

theorem ExtendsBootstrap.includes {h : Hierarchy} (hb : h.ExtendsBootstrap) :
    h.Includes bootstrap := by
  obtain ⟨added, hnew, rfl⟩ := hb
  exact (Includes.refl bootstrap).foldl_add hnew

theorem Includes.hasThrowables {h : Hierarchy} (hb : h.Includes bootstrap) : h.HasThrowables :=
  fun _ _ hchain _ hc => hb _ _ ((superclassChain_ok_iff.1 hchain).get?_of_mem hc)

theorem get?_foldl_add {added : List ClassFile} (h : Hierarchy)
    (hnodup : (added.map ClassFile.name).Nodup) {c : ClassFile} (hc : c ∈ added) :
    (added.foldl Hierarchy.add h).get? c.name = some c := by
  induction added generalizing h with
  | nil => cases hc
  | cons d rest ih =>
    obtain ⟨hne, hrest⟩ := List.nodup_cons.1 hnodup
    rcases List.mem_cons.1 hc with rfl | hc
    · have honly : (h.add c).Includes (empty.add c) := by
        intro name d hget
        rw [get?_add] at hget ⊢
        split at hget
        · next heq => rwa [if_pos heq]
        · cases hget
      refine honly.foldl_add (fun d hd => ?_) _ _ ?_
      · rw [get?_add, if_neg fun heq => hne (List.mem_map.2 ⟨d, hd, heq⟩)]
        rfl
      · rw [get?_add, if_pos rfl]
    · exact ih _ hrest hc

theorem bootstrap_get? {o : ClassOutline} (ho : o ∈ Bootstrap.outlines) :
    bootstrap.get? o.name = some o.build := by
  have hnodup : ((Bootstrap.outlines.map ClassOutline.build).map ClassFile.name).Nodup := by
    decide +kernel
  have hfound := get?_foldl_add (c := o.build) empty hnodup (List.mem_map_of_mem ho)
  rwa [List.foldl_map] at hfound

theorem get?_foldl_add_of_notMem {added : List ClassFile} (h : Hierarchy) {name : String}
    (hnotMem : name ∉ added.map ClassFile.name) :
    (added.foldl Hierarchy.add h).get? name = h.get? name := by
  induction added generalizing h with
  | nil => rfl
  | cons c rest ih =>
    obtain ⟨hne, hrest⟩ := not_or.1 (List.mem_cons.not.1 hnotMem)
    rw [List.foldl_cons, ih _ hrest, get?_add, if_neg hne]

theorem bootstrap_get?_of_notMem {name : String}
    (hnotMem : name ∉ Bootstrap.outlines.map ClassOutline.name) : bootstrap.get? name = none := by
  have hother : name ∉ (Bootstrap.outlines.map ClassOutline.build).map ClassFile.name := by
    rwa [List.map_map]
  have hget := get?_foldl_add_of_notMem empty hother
  rwa [List.foldl_map] at hget

theorem extendsBootstrap_add {c : ClassFile}
    (hnotMem : c.name ∉ Bootstrap.outlines.map ClassOutline.name) :
    (bootstrap.add c).ExtendsBootstrap := by
  refine ⟨[c], fun d hd => ?_, rfl⟩
  rw [List.mem_singleton.1 hd]
  exact bootstrap_get?_of_notMem hnotMem

theorem bootstrap_object : bootstrap.get? objectClass = some Bootstrap.object.build :=
  bootstrap_get? (o := Bootstrap.object) (by simp [Bootstrap.outlines])

theorem throwableClass_layout : bootstrap.HasLayout throwableClass := by
  have hget : bootstrap.get? throwableClass = some Bootstrap.throwable.build :=
    bootstrap_get? (o := Bootstrap.throwable) (by simp [Bootstrap.outlines])
  have hobject : bootstrap.HasLayout objectClass := .root bootstrap_object rfl rfl
  refine .step hget rfl (fun f hf => ?_) hobject
  fin_cases hf
  · exact ⟨.reference "java/lang/String", by decide +kernel⟩
  · exact ⟨.reference "java/lang/Throwable", by decide +kernel⟩

theorem exceptionClass_layout {name superName : String}
    (hmem : Bootstrap.exceptionClass name superName ∈ Bootstrap.outlines)
    (hl : bootstrap.HasLayout superName) : bootstrap.HasLayout name := by
  have hget : bootstrap.get? name = some (Bootstrap.exceptionClass name superName).build :=
    bootstrap_get? (o := Bootstrap.exceptionClass name superName) hmem
  have hfields : (Bootstrap.exceptionClass name superName).build.instanceFields = [] := rfl
  exact .step hget rfl (by simp [hfields]) hl

theorem mem_outlines_of_throwable (t : Throwable) :
    Bootstrap.exceptionClass t.className t.superclass ∈ Bootstrap.outlines :=
  List.mem_append_right _ (List.mem_map_of_mem (Throwable.mem_all t))

theorem throwable_layout (t : Throwable) : bootstrap.HasLayout t.className := by
  have herror : bootstrap.HasLayout "java/lang/Error" :=
    exceptionClass_layout (by simp [Bootstrap.outlines]) throwableClass_layout
  have hexception : bootstrap.HasLayout "java/lang/Exception" :=
    exceptionClass_layout (by simp [Bootstrap.outlines]) throwableClass_layout
  have hruntime : bootstrap.HasLayout "java/lang/RuntimeException" :=
    exceptionClass_layout (by simp [Bootstrap.outlines]) hexception
  have hlinkage : bootstrap.HasLayout "java/lang/LinkageError" :=
    exceptionClass_layout (by simp [Bootstrap.outlines]) herror
  have hmachine : bootstrap.HasLayout "java/lang/VirtualMachineError" :=
    exceptionClass_layout (by simp [Bootstrap.outlines]) herror
  -- two exceptions of the machine are themselves superclasses of others
  have hbounds := exceptionClass_layout
    (mem_outlines_of_throwable .indexOutOfBoundsException) hruntime
  have hchange := exceptionClass_layout
    (mem_outlines_of_throwable .incompatibleClassChangeError) hlinkage
  refine exceptionClass_layout (mem_outlines_of_throwable t) ?_
  cases t <;> assumption

theorem HasThrowables.instanceFields {h : Hierarchy} (hb : h.HasThrowables) (t : Throwable) :
    ∃ fields, h.instanceFields t.className = .ok fields := by
  obtain ⟨chain, hascent, htypes⟩ := throwable_layout t
  rw [instanceFields_of_get? hascent (hb t chain (superclassChain_ok_iff.2 hascent))]
  exact HasLayout.instanceFields ⟨chain, hascent, htypes⟩

theorem Includes.stringFields {h : Hierarchy} (hb : h.Includes bootstrap) :
    ∃ fields, h.instanceFields stringClass = .ok fields ∧ fields.contains "value" := by
  have hascent : Ascent bootstrap stringClass [Bootstrap.string.build, Bootstrap.object.build] :=
    .step (bootstrap_get? (o := Bootstrap.string) (by simp [Bootstrap.outlines])) rfl
      (.root bootstrap_object rfl)
  have hlayout : bootstrap.instanceFields stringClass =
      layOut ∅ [Bootstrap.object.build, Bootstrap.string.build] := by
    rw [instanceFields, superclassChain_ok_iff.2 hascent]
    rfl
  have hvalue : (layOut ∅ [Bootstrap.object.build, Bootstrap.string.build]).toOption.any
      (·.contains "value") := by
    decide +kernel
  rw [instanceFields_of_get? hascent fun c hc => hb _ _ (hascent.get?_of_mem hc), hlayout]
  cases hfields : layOut ∅ [Bootstrap.object.build, Bootstrap.string.build] with
  | error e => simp [hfields, Except.toOption] at hvalue
  | ok fields => exact ⟨fields, rfl, by simpa [hfields, Except.toOption] using hvalue⟩

end SymbolicBytecode.Hierarchy

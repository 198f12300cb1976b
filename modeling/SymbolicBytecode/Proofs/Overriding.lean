import Mathlib
import SymbolicBytecode.Proofs.Superclasses

/-!
# Overriding

The rules for overriding are transitive: a method that is visible in its package only is overridden
in another package by way of a method in between, which overrides it in its own package and is
public or protected. Virtual selection compares each class with the resolved method alone. On every
chain of superclasses it takes the declaration that the rules ask for, unless that one overrides the
resolved method only by way of another.
-/
namespace SymbolicBytecode

open Relation (TransGen)

theorem AccessFlags.isPackagePrivate_iff (flags : AccessFlags) :
    flags.isPackagePrivate ↔ ¬flags.isPublic ∧ ¬flags.isPrivate ∧ ¬flags.isProtected := by
  have hbits : flags &&& 7 = flags &&& 1 ||| flags &&& 2 ||| flags &&& 4 := by
    apply UInt16.toBitVec_inj.1
    simp only [UInt16.toBitVec_and, UInt16.toBitVec_or, ← BitVec.and_or_distrib_left]
    rfl
  simp only [isPackagePrivate, isPublic, isPrivate, isProtected, hbits, beq_iff_eq, bne_iff_ne,
    UInt16.or_eq_zero_iff, ne_eq, not_not, and_assoc]

namespace Declaration

/-- Public or protected, and so to be overridden in every package. -/
def Exported (d : Declaration) : Prop :=
  d.method.accessFlags.isPublic ∨ d.method.accessFlags.isProtected

def VisibleIn (d : Declaration) (package : String) : Prop :=
  d.Exported ∨ package = d.owner.package

end Declaration

namespace Hierarchy

variable {h : Hierarchy} {d e between : Declaration}

/-- A proper subclass declares the method again, and not as its private one. -/
structure Redeclares (h : Hierarchy) (d e : Declaration) : Prop where
  name_eq : d.method.name = e.method.name
  descriptor_eq : d.method.descriptor = e.method.descriptor
  notPrivate : ¬d.method.accessFlags.isPrivate
  below : TransGen h.HasSuperclass d.owner.name e.owner.name

theorem Redeclares.trans (hd : h.Redeclares d between) (he : h.Redeclares between e) :
    h.Redeclares d e :=
  ⟨hd.name_eq.trans he.name_eq, hd.descriptor_eq.trans he.descriptor_eq, hd.notPrivate,
    hd.below.trans he.below⟩

/-- The rules for overriding. A method overrides itself; it overrides one that is visible where it
is declared; and it overrides what is overridden by some method in between that it overrides. -/
inductive Overrides (h : Hierarchy) : Declaration → Declaration → Prop
  | self (d : Declaration) : Overrides h d d
  | visible {d e : Declaration} (hd : h.Redeclares d e) (hvisible : e.VisibleIn d.owner.package) :
      Overrides h d e
  | through {d between e : Declaration} (hd : h.Redeclares d e) (hbetween : h.Declares between)
      (hlower : TransGen h.HasSuperclass d.owner.name between.owner.name)
      (hupper : TransGen h.HasSuperclass between.owner.name e.owner.name)
      (lower : Overrides h d between) (upper : Overrides h between e) : Overrides h d e

/-- A method that is not visible where it is declared again, but which is exported from its package
by a declaration in between. -/
structure ByWayOf (h : Hierarchy) (d between e : Declaration) : Prop where
  hidden : ¬e.VisibleIn d.owner.package
  declared : h.Declares between
  lower : h.Redeclares d between
  upper : h.Redeclares between e
  package_eq : between.owner.package = e.owner.package
  exported : between.Exported

theorem Overrides.cases (hd : h.Overrides d e) :
    d = e ∨ h.Redeclares d e ∧ e.VisibleIn d.owner.package ∨ ∃ between, h.ByWayOf d between e := by
  induction hd with
  | self => exact .inl rfl
  | visible hd hvisible => exact .inr (.inl ⟨hd, hvisible⟩)
  | @through d between e hd hbetween _ _ _ _ lower upper =>
    by_cases hvisible : e.VisibleIn d.owner.package
    · exact .inr (.inl ⟨hd, hvisible⟩)
    obtain rfl | ⟨hupper, hpackage⟩ | ⟨b, hb⟩ := upper
    · exact lower
    · -- `e` is not exported, so that `between` must be in the package of `e`
      have hpackage : between.owner.package = e.owner.package :=
        hpackage.resolve_left fun hexported => hvisible (.inl hexported)
      obtain rfl | ⟨hlower, hexported | heq⟩ | ⟨b, hb⟩ := lower
      · exact absurd (.inr hpackage) hvisible
      · exact .inr (.inr ⟨between, hvisible, hbetween, hlower, hupper, hpackage, hexported⟩)
      · exact absurd (.inr (heq.trans hpackage)) hvisible
      · exact .inr (.inr ⟨b, hvisible, hb.declared, hb.lower, hb.upper.trans hupper,
          hb.package_eq.trans hpackage, hb.exported⟩)
    · obtain rfl | ⟨hlower, -⟩ | ⟨b', hb'⟩ := lower
      · exact .inr (.inr ⟨b, hb⟩)
      · exact .inr (.inr ⟨b, hvisible, hb.declared, hlower.trans hb.lower, hb.upper, hb.package_eq,
          hb.exported⟩)
      · exact .inr (.inr ⟨b, hvisible, hb.declared, (hb'.lower.trans hb'.upper).trans hb.lower,
          hb.upper, hb.package_eq, hb.exported⟩)

/-- One step in between is enough for all chains of overriding methods. -/
theorem overrides_iff : h.Overrides d e ↔
    d = e ∨ h.Redeclares d e ∧ e.VisibleIn d.owner.package ∨ ∃ between, h.ByWayOf d between e := by
  constructor
  · exact Overrides.cases
  · rintro (rfl | ⟨hd, hvisible⟩ | ⟨between, hb⟩)
    · exact .self d
    · exact .visible hd hvisible
    · exact .through (hb.lower.trans hb.upper) hb.declared hb.lower.below hb.upper.below
        (.visible hb.lower (.inl hb.exported)) (.visible hb.upper (.inr hb.package_eq))

section Selecting

variable {r : ResolvedMethod} {receiver : String} {below above : List ClassFile}

/-- Virtual selection compares a class with the resolved method alone. -/
theorem Resolved.overrides_iff (hd : h.Resolved r d) (hr : ¬r.isPrivate) :
    overrides e r ↔ ¬e.method.accessFlags.isPrivate ∧ d.VisibleIn e.owner.package := by
  have hpackage : packageOf r.signature.className = d.owner.package := by
    rw [ClassFile.package, hd.owner_eq]
  have hexported : ¬r.accessFlags.isPackagePrivate ↔ d.Exported := by
    have hprivate : ¬r.accessFlags.isPrivate := hr
    rw [AccessFlags.isPackagePrivate_iff, Declaration.Exported, hd.accessFlags_eq]
    tauto
  rw [overrides, hpackage, Declaration.VisibleIn, ← hexported]
  simp

theorem Ascent.below_of_mem {name : String} {b c : ClassFile}
    (ha : Ascent h name (below ++ c :: above)) (hb : b ∈ below) :
    TransGen h.HasSuperclass b.name c.name := by
  obtain ⟨lower, upper, rfl⟩ := List.append_of_mem hb
  rw [List.append_assoc, List.cons_append] at ha
  exact (ha.of_append.mem_tail_iff.1 (List.mem_append_right _ List.mem_cons_self)).2

/-- What selection looks for in the classes from the receiver up to the resolved method overrides
it by the rules. -/
theorem Resolved.overrides_of_mem (hd : h.Resolved r d) (hr : ¬r.isPrivate)
    (ha : Ascent h receiver (below ++ d.owner :: above)) {c : ClassFile}
    (hc : c ∈ below ++ [d.owner]) {m : Method}
    (hm : c.method? r.signature.name r.signature.descriptor = some m)
    (hoverrides : overrides ⟨c, m⟩ r) : h.Overrides ⟨c, m⟩ d := by
  rcases List.mem_append.1 hc with hc | hc
  · obtain ⟨hprivate, hvisible⟩ := (hd.overrides_iff hr).1 hoverrides
    have hdeclares := declares_of_method? (ha.get?_of_mem (List.mem_append_left _ hc)) hm
    exact .visible ⟨hdeclares.name_eq.trans hd.name_eq.symm,
      hdeclares.descriptor_eq.trans hd.descriptor_eq.symm, hprivate, ha.below_of_mem hc⟩ hvisible
  · obtain rfl := List.mem_singleton.1 hc
    obtain rfl := Option.some.inj (hm.symm.trans hd.method?_eq)
    exact .self d

/-- Selection takes the first declaration that it finds to override the resolved method, if it
comes to no static one before. -/
theorem lookupVirtual_first (hr : ¬r.isPrivate) (hreceiver : ¬IsArrayName receiver)
    (ha : Ascent h receiver (below ++ above))
    (hinstance : ∀ c ∈ below, ∀ m,
      c.method? r.signature.name r.signature.descriptor = some m → ¬m.accessFlags.isStatic)
    (he : FirstOn below r.signature.name r.signature.descriptor (overrides · r) e) :
    h.lookupVirtual receiver r false = e.outcome := by
  have hsettles := he.imp (q := Settles r) (.inr he.holds)
    fun c hc m hm hsettles => hsettles.resolve_left (hinstance c hc m hm)
  rw [lookupVirtual_of_ascent hreceiver hr ha, selectOnChain_first (hsettles.append above),
    Option.getD_some, if_neg (hinstance e.owner he.mem e.method he.declared), selected_false]

theorem Declares.eq_of_outcome (hd : h.Declares d) (he : h.Declares e)
    (hsame : d.outcome = e.outcome) : d = e := by
  refine hd.eq_of_signature he ?_
  unfold Declaration.outcome at hsame
  split at hsame <;> split at hsame
  · simpa using hsame
  · cases hsame
  · cases hsame
  · exact congrArg Implementation.signature (Except.ok.inj hsame)

/-- What selection finds first is what overrides the method first, unless by way of another. -/
theorem Resolved.first_eq_iff (hd : h.Resolved r d) (hr : ¬r.isPrivate)
    (ha : Ascent h receiver (below ++ d.owner :: above)) {found required : Declaration}
    (hfound : FirstOn (below ++ [d.owner]) r.signature.name r.signature.descriptor
      (overrides · r) found)
    (hrequired : FirstOn (below ++ [d.owner]) r.signature.name r.signature.descriptor
      (h.Overrides · d) required) :
    found = required ↔ ¬∃ between, h.ByWayOf required between d := by
  constructor
  · rintro rfl ⟨between, hbetween⟩
    exact hbetween.hidden ((hd.overrides_iff hr).1 hfound.holds).2
  · intro hdirect
    -- `required` overrides the method directly, and nothing before it overrides it at all
    have hoverrides : overrides required r := by
      obtain rfl | ⟨hredeclares, hvisible⟩ | hbyWay := hrequired.holds.cases
      · exact hd.overrides_self hr
      · exact (hd.overrides_iff hr).2 ⟨hredeclares.notPrivate, hvisible⟩
      · exact absurd hbyWay hdirect
    have hfirst := hrequired.imp (q := (overrides · r)) hoverrides
      fun c hc m hm => hd.overrides_of_mem hr ha hc hm
    exact hfound.unique hfirst

/-- **Which method a virtual call selects.** Let the superclasses of the receiver lead up to the
class of the resolved method, with no static declaration of it on the way. Selection then takes the
first declaration that is not private and in whose package the resolved method is visible. This is
the first one that overrides the method by the rules, except if that one does so only by way of
another. -/
theorem lookupVirtual_overriding (hd : h.Resolved r d) (hinstance : ¬r.isStatic)
    (hr : ¬r.isPrivate) (hreceiver : ¬IsArrayName receiver)
    (hchain : h.superclassChain receiver = .ok (below ++ d.owner :: above))
    (hbelow : ∀ c ∈ below, ∀ m,
      c.method? r.signature.name r.signature.descriptor = some m → ¬m.accessFlags.isStatic) :
    ∃ found required : Declaration,
      FirstOn (below ++ d.owner :: above) r.signature.name r.signature.descriptor
        (fun e => ¬e.method.accessFlags.isPrivate ∧ d.VisibleIn e.owner.package) found ∧
      FirstOn (below ++ d.owner :: above) r.signature.name r.signature.descriptor
        (h.Overrides · d) required ∧
      h.lookupVirtual receiver r false = found.outcome ∧
      (h.lookupVirtual receiver r false = required.outcome ↔
        ¬∃ between, h.ByWayOf required between d) := by
  have ha := superclassChain_ok_iff.1 hchain
  have hown : d.owner ∈ below ++ [d.owner] := by simp
  obtain ⟨found, hfound⟩ :=
    FirstOn.exists_of_mem (p := (overrides · r)) hown hd.method?_eq (hd.overrides_self hr)
  obtain ⟨required, hrequired⟩ :=
    FirstOn.exists_of_mem (p := (h.Overrides · d)) hown hd.method?_eq (.self d)
  have hlookup : h.lookupVirtual receiver r false = found.outcome := by
    refine lookupVirtual_first hr hreceiver (List.append_cons _ _ above ▸ ha)
      (fun c hc m hm => ?_) hfound
    rcases List.mem_append.1 hc with hc | hc
    · exact hbelow c hc m hm
    · obtain rfl := List.mem_singleton.1 hc
      obtain rfl := Option.some.inj (hm.symm.trans hd.method?_eq)
      rwa [hd.accessFlags_eq]
  have hfound' := List.append_cons below d.owner above ▸ hfound.append above
  have hrequired' := List.append_cons below d.owner above ▸ hrequired.append above
  refine ⟨found, required, ?_, hrequired', hlookup, ?_⟩
  · simpa only [hd.overrides_iff hr] using hfound'
  · rw [hlookup, ← hd.first_eq_iff hr ha hfound hrequired]
    refine ⟨(hfound'.declares ha).eq_of_outcome (hrequired'.declares ha).toDeclares, ?_⟩
    rintro rfl
    rfl

end Selecting

/-- Package `p` exports the method of `p/A` in `p/B`; in `p/D` there is a private one. -/
def exportingClasses : Hierarchy :=
  [Bootstrap.object.build, idleClass "p/A" objectClass 0, idleClass "p/B" "p/A" 0x0001,
    idleClass "q/C" "p/B" 0x0001, idleClass "p/D" "p/B" 0x0002].foldl add .empty

def packageMethod : ResolvedMethod := ⟨⟨"p/A", "m", "()V"⟩, 0, false⟩

theorem resolved_packageMethod :
    exportingClasses.Resolved packageMethod ⟨idleClass "p/A" objectClass 0, idleMethod 0⟩ :=
  ⟨⟨⟨by decide +kernel, by decide +kernel⟩, rfl, rfl⟩, rfl, rfl⟩

/-- The private method is passed over. -/
theorem lookupVirtual_exporting :
    exportingClasses.resolveMethod "p/A" ⟨"p/A", "m", "()V"⟩ false = .ok packageMethod ∧
    exportingClasses.lookupVirtual "p/D" packageMethod false =
      .ok ⟨⟨"p/B", "m", "()V"⟩, 0x0001⟩ ∧
    ∃ found required : Declaration,
      exportingClasses.lookupVirtual "p/D" packageMethod false = found.outcome ∧
      (exportingClasses.lookupVirtual "p/D" packageMethod false = required.outcome ↔
        ¬∃ between, exportingClasses.ByWayOf required between
          ⟨idleClass "p/A" objectClass 0, idleMethod 0⟩) := by
  have hchain : exportingClasses.superclassChain "p/D" =
      .ok ([idleClass "p/D" "p/B" 0x0002, idleClass "p/B" "p/A" 0x0001] ++
        idleClass "p/A" objectClass 0 :: [Bootstrap.object.build]) := by decide +kernel
  have hinstance : ∀ c ∈ [idleClass "p/D" "p/B" 0x0002, idleClass "p/B" "p/A" 0x0001], ∀ m,
      c.method? "m" "()V" = some m → ¬m.accessFlags.isStatic := by
    intro c hc m hm
    have hall : ∀ c ∈ [idleClass "p/D" "p/B" 0x0002, idleClass "p/B" "p/A" 0x0001],
        ∀ m ∈ c.methods, ¬m.accessFlags.isStatic := by decide +kernel
    exact hall c hc m (List.mem_of_find?_eq_some hm)
  obtain ⟨found, required, -, -, hlookup⟩ := lookupVirtual_overriding resolved_packageMethod
    (by decide +kernel) (by decide +kernel) (by decide +kernel) hchain hinstance
  exact ⟨by decide +kernel, by decide +kernel, found, required, hlookup⟩

/-- `q/C` overrides the method of `p/A` by way of `p/B`, but a call on an object of `q/C` executes
the method of `p/B`. -/
theorem lookupVirtual_byWayOf :
    ∃ chain, exportingClasses.superclassChain "q/C" = .ok chain ∧
      exportingClasses.resolveMethod "p/A" ⟨"p/A", "m", "()V"⟩ false = .ok packageMethod ∧
      ¬packageMethod.isPrivate ∧ ¬packageMethod.isStatic ∧
      FirstOn chain "m" "()V"
        (exportingClasses.Overrides · ⟨idleClass "p/A" objectClass 0, idleMethod 0⟩)
        ⟨idleClass "q/C" "p/B" 0x0001, idleMethod 0x0001⟩ ∧
      exportingClasses.lookupVirtual "q/C" packageMethod false =
        .ok ⟨⟨"p/B", "m", "()V"⟩, 0x0001⟩ := by
  have hC : exportingClasses.HasSuperclass "q/C" "p/B" :=
    ⟨idleClass "q/C" "p/B" 0x0001, by decide +kernel, rfl⟩
  have hB : exportingClasses.HasSuperclass "p/B" "p/A" :=
    ⟨idleClass "p/B" "p/A" 0x0001, by decide +kernel, rfl⟩
  have hoverrides : exportingClasses.Overrides ⟨idleClass "q/C" "p/B" 0x0001, idleMethod 0x0001⟩
      ⟨idleClass "p/A" objectClass 0, idleMethod 0⟩ := by
    refine overrides_iff.2 (.inr (.inr ⟨⟨idleClass "p/B" "p/A" 0x0001, idleMethod 0x0001⟩, ?_⟩))
    refine ⟨?_, ⟨by decide +kernel, by decide +kernel⟩, ⟨rfl, rfl, by decide, .single hC⟩,
      ⟨rfl, rfl, by decide, .single hB⟩, by decide +kernel, .inl (by decide)⟩
    unfold Declaration.VisibleIn Declaration.Exported
    decide +kernel
  have hchain : exportingClasses.superclassChain "q/C" = .ok [idleClass "q/C" "p/B" 0x0001,
      idleClass "p/B" "p/A" 0x0001, idleClass "p/A" objectClass 0, Bootstrap.object.build] := by
    decide +kernel
  exact ⟨_, hchain, by decide +kernel, by decide, by decide,
    ⟨hoverrides, by decide +kernel, [], _, rfl, by simp⟩, by decide +kernel⟩

end Hierarchy

end SymbolicBytecode

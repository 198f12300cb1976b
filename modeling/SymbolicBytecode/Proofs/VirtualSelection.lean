import Mathlib
import SymbolicBytecode.Proofs.MethodResolution

/-!
# Virtual selection is sound

Whatever a virtual or interface call executes is an instance method with a body that the class of
the receiver has by inheritance, and no class on the way to it has a better claim. This holds on
every hierarchy, for every receiver and for every method, whether a reference has been resolved to
it or not.
-/
namespace SymbolicBytecode.Hierarchy

open Relation (ReflTransGen)

variable {h : Hierarchy} {receiver : String} {r : ResolvedMethod} {isInterface : Bool}
  {d : Declaration} {c : ClassFile} {chain : List ClassFile} {i : Implementation}

/-- The class declares the method anew and not as its private one, in a place where the method of
the call can be overridden. Of several methods with one name and descriptor the first counts. -/
def Supersedes (r : ResolvedMethod) (c : ClassFile) : Prop :=
  ∃ m, c.method? r.signature.name r.signature.descriptor = some m ∧ ¬m.accessFlags.isPrivate ∧
    ¬(r.accessFlags.isPackagePrivate ∧ c.package ≠ packageOf r.signature.className)

/-- A method that a call of `r` on an object of the class may execute. -/
structure Eligible (h : Hierarchy) (className : String) (r : ResolvedMethod) (isInterface : Bool)
    (d : Declaration) : Prop extends h.DeclaresAs r.signature.name r.signature.descriptor d where
  notStatic : ¬d.method.accessFlags.isStatic
  notPrivate : ¬d.method.accessFlags.isPrivate
  notAbstract : ¬d.method.accessFlags.isAbstract
  isPublic : isInterface → d.method.accessFlags.isPublic
  supertype : ReflTransGen h.Inherits className d.owner.name

theorem supersedes_iff : Supersedes r c ↔
    ∃ m, c.method? r.signature.name r.signature.descriptor = some m ∧ overrides ⟨c, m⟩ r := by
  simp [Supersedes, overrides, imp_iff_not_or]

/-- A class that selection passes over has no claim. -/
theorem not_supersedes_of_not_settles
    (hc : ∀ m, c.method? r.signature.name r.signature.descriptor = some m → ¬Settles r ⟨c, m⟩) :
    ¬Supersedes r c := by
  rw [supersedes_iff]
  rintro ⟨m, hm, hoverrides⟩
  exact hc m hm (.inr hoverrides)

theorem lookupVirtual_ok (hr : ¬r.isPrivate)
    (hi : h.lookupVirtual receiver r isInterface = .ok i) :
    ∃ chain, Ascent h (receiverClass receiver) chain ∧
      (selectOnChain r isInterface chain).getD
        (h.selectDefault (receiverClass receiver) r.signature isInterface) = .ok i := by
  unfold lookupVirtual at hi
  dsimp only at hi
  split at hi
  · cases hi
  obtain ⟨chain, hchain, hi⟩ := except_bind_ok_iff.1 hi
  exact ⟨chain, superclassChain_ok_iff.1 hchain, hi⟩

/-- A method that was found among the superclasses of the receiver. -/
theorem FirstOn.eligible {className : String} (ha : Ascent h className chain)
    (hd : FirstOn chain r.signature.name r.signature.descriptor (Settles r) d)
    (hinstance : ¬d.method.accessFlags.isStatic) (hi : selected d isInterface = .ok i) :
    h.Eligible className r isInterface d := by
  obtain ⟨-, habstract, hpublic⟩ := selected_ok_iff.1 hi
  have hoverrides : overrides d r := hd.holds.resolve_left hinstance
  have hprivate : ¬d.method.accessFlags.isPrivate := by
    rw [overrides, Bool.and_eq_true] at hoverrides
    simpa using hoverrides.1
  exact ⟨hd.declares ha, hinstance, hprivate, habstract, hpublic, ha.inherits hd.mem⟩

/-- A method that was found among the superinterfaces of the receiver. -/
theorem eligible_of_mem_maximallySpecific {className : String}
    (hd : d ∈ h.maximallySpecific className r.signature.name r.signature.descriptor)
    (hi : selected d isInterface = .ok i) :
    h.Eligible className r isInterface d ∧ h.Superinterface className d.owner := by
  obtain ⟨-, habstract, hpublic⟩ := selected_ok_iff.1 hi
  have hmem := (mem_maximallySpecific_iff.1 hd).1
  obtain ⟨hinheritable, -⟩ :=
    (mem_inheritable_iff (s := ⟨className, r.signature.name, r.signature.descriptor⟩)).1 hmem
  exact ⟨⟨declares_of_mem_maximallySpecific hd, hinheritable.notStatic, hinheritable.notPrivate,
    habstract, hpublic, hinheritable.owner.above.to_reflTransGen⟩, hinheritable.owner⟩

/-- **Virtual selection is sound.** The selected method is declared, with these access flags, under
the name and the descriptor of the method that is called, in a supertype of the receiver's class
(for arrays, of the root class). It is not static, private or abstract, and public if the call is an
interface call. No class that comes before on the chain of superclasses supersedes the method that
is called, and no class on the chain at all if the selected one comes from a superinterface. Of
several methods of a class with one name and descriptor the first is the one that counts. -/
theorem lookupVirtual_sound (hr : ¬r.isPrivate)
    (hi : h.lookupVirtual receiver r isInterface = .ok i) :
    ∃ d chain, i = d.implementation ∧ h.Eligible (receiverClass receiver) r isInterface d ∧
      h.superclassChain (receiverClass receiver) = .ok chain ∧
      ((∃ before after, chain = before ++ d.owner :: after ∧ ∀ c ∈ before, ¬Supersedes r c) ∨
        h.Superinterface (receiverClass receiver) d.owner ∧ ∀ c ∈ chain, ¬Supersedes r c) := by
  obtain ⟨chain, ha, hi⟩ := lookupVirtual_ok hr hi
  have hchain := superclassChain_ok_iff.2 ha
  rcases FirstOn.exists_or_forall_not chain r.signature.name r.signature.descriptor (Settles r) with
    ⟨d, hd⟩ | hnone
  · rw [selectOnChain_first hd, Option.getD_some] at hi
    split at hi
    · cases hi
    next hinstance =>
    obtain ⟨before, after, hsplit, hbefore⟩ := hd.first
    exact ⟨d, chain, selected_ok hi, hd.eligible ha hinstance hi, hchain,
      .inl ⟨before, after, hsplit, fun c hc => not_supersedes_of_not_settles (hbefore c hc)⟩⟩
  · rw [selectOnChain_unsettled hnone, Option.getD_none] at hi
    obtain ⟨d, hd, hi⟩ := selectDefault_ok hi
    obtain ⟨heligible, hsuper⟩ := eligible_of_mem_maximallySpecific hd hi
    exact ⟨d, chain, selected_ok hi, heligible, hchain,
      .inr ⟨hsuper, fun c hc => not_supersedes_of_not_settles (hnone c hc)⟩⟩

/-- The method of `p/A` is visible in its package only. Its subclass `p/B` has a private method of
that name, and `q/C`, below `p/B`, a public one in another package. -/
def secludedClasses : Hierarchy :=
  [Bootstrap.object.build, idleClass "p/A" objectClass 0, idleClass "p/B" "p/A" 0x0002,
    idleClass "q/C" "p/B" 0x0001].foldl add .empty

def secludedMethod : ResolvedMethod := ⟨⟨"p/A", "m", "()V"⟩, 0, false⟩

/-- Both methods are passed over. -/
theorem lookupVirtual_secluded :
    secludedClasses.lookupVirtual "q/C" secludedMethod false = .ok ⟨⟨"p/A", "m", "()V"⟩, 0⟩ ∧
    ∃ d chain, d.implementation = ⟨⟨"p/A", "m", "()V"⟩, 0⟩ ∧
      secludedClasses.Eligible "q/C" secludedMethod false d ∧
      secludedClasses.superclassChain "q/C" = .ok chain ∧
      ((∃ before after, chain = before ++ d.owner :: after ∧
          ∀ c ∈ before, ¬Supersedes secludedMethod c) ∨
        secludedClasses.Superinterface "q/C" d.owner ∧
          ∀ c ∈ chain, ¬Supersedes secludedMethod c) := by
  have hi : secludedClasses.lookupVirtual "q/C" secludedMethod false =
      .ok ⟨⟨"p/A", "m", "()V"⟩, 0⟩ := by decide +kernel
  have hreceiver : receiverClass "q/C" = "q/C" := by decide
  obtain ⟨d, chain, himplementation, hd⟩ := lookupVirtual_sound (by decide) hi
  rw [hreceiver] at hd
  exact ⟨hi, d, chain, himplementation.symm, hd⟩

end SymbolicBytecode.Hierarchy

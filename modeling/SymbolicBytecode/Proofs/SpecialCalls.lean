import Mathlib
import SymbolicBytecode.Proofs.MethodResolution

/-!
# Special calls of superclass methods

A class calls the method of a superclass, and the call starts at its direct superclass: a method
that was declared in between since is the one to execute. This works if the resolved method is
declared in a class. If the superclass inherits the method from an interface, the call starts at
that interface instead and misses the declarations in between.
-/
namespace SymbolicBytecode.Hierarchy

open Relation (ReflTransGen)

variable {h : Hierarchy} {accessor superName : String} {s : Signature} {caller : ClassFile}
  {r : ResolvedMethod} {d : Declaration} {chain : List ClassFile}

theorem specialStart_eq {declaring : ClassFile} (hcaller : h.get? accessor = some caller)
    (hsuper : caller.superName = some superName)
    (hdeclaring : h.get? s.className = some declaring) :
    h.specialStart accessor s =
      if s.name ≠ "<init>" && !declaring.isInterface && caller.accessFlags.isSuper
        && s.className ≠ accessor && h.isSubclass accessor s.className
      then h.find superName else .ok declaring := by
  simp only [specialStart, find_ok_iff.2 hcaller, find_ok_iff.2 hdeclaring, hsuper, bind,
    Except.bind, pure, Except.pure]

theorem lookupSpecial_found {start : ClassFile}
    (hstart : h.specialStart accessor r.signature = .ok start)
    (hfound : h.specialDeclaration? start r.signature = .ok (some d)) :
    h.lookupSpecial accessor r = d.outcome := by
  simp only [lookupSpecial, hstart, hfound, bind, Except.bind, selected_false]

theorem specialDeclaration?_own {start : ClassFile} (hinterface : start.isInterface) {m : Method}
    (hm : start.method? s.name s.descriptor = some m) :
    h.specialDeclaration? start s = .ok (some ⟨start, m⟩) := by
  rw [specialDeclaration?, if_pos hinterface, hm]

theorem specialDeclaration?_first {start : ClassFile} (hclass : ¬start.isInterface)
    (ha : Ascent h start.name chain)
    (hd : FirstOn chain s.name s.descriptor (fun _ => True) d) :
    h.specialDeclaration? start s = .ok (some d) := by
  rw [specialDeclaration?, if_neg hclass, findInSuperclasses_of_ascent ha,
    firstDeclaring_eq_some_iff.2 hd]

/-- The resolved method is itself executed if the call does not start at the direct superclass. -/
theorem Resolved.lookupSpecial_own (hd : h.Resolved r d) (hcaller : h.get? accessor = some caller)
    (hsuper : caller.superName = some superName)
    (hplace : d.owner.isInterface ∨ ∃ rest, Ascent h d.owner.name (d.owner :: rest))
    (hstays : d.owner.isInterface ∨ ¬h.isSubclass accessor d.owner.name) :
    h.lookupSpecial accessor r = d.outcome := by
  have hstart : h.specialStart accessor r.signature = .ok d.owner := by
    rw [specialStart_eq hcaller hsuper hd.get?_owner, ← hd.owner_eq, if_neg]
    rcases hstays with hinterface | hother
    · simp [hinterface]
    · simp [hother]
  by_cases hinterface : d.owner.isInterface
  · exact lookupSpecial_found hstart (specialDeclaration?_own hinterface hd.method?_eq)
  · obtain ⟨rest, ha⟩ := hplace.resolve_left hinterface
    refine lookupSpecial_found hstart (specialDeclaration?_first hinterface ha ?_)
    exact ⟨trivial, hd.method?_eq, [], rest, rfl, by simp⟩

/-- A call that goes up starts at the direct superclass. -/
theorem Resolved.lookupSpecial_up {start : ClassFile} {first : Declaration} (hd : h.Resolved r d)
    (hcaller : h.get? accessor = some caller) (hflag : caller.accessFlags.isSuper)
    (hsuper : caller.superName = some superName) (ha : Ascent h superName chain)
    (howner : d.owner ∈ chain) (hclass : ¬d.owner.isInterface)
    (hname : r.signature.name ≠ "<init>") (hsubclass : h.isSubclass accessor d.owner.name)
    (hstart : h.get? superName = some start)
    (hfirst : FirstOn chain r.signature.name r.signature.descriptor (fun _ => True) first)
    (hkind : ¬start.isInterface ∨ first.owner = start) :
    h.lookupSpecial accessor r = first.outcome := by
  have hother : d.owner.name ≠ accessor := by
    rw [← name_of_get? hcaller]
    intro heq
    have hnotMem := (List.nodup_cons.1 (Ascent.step hcaller hsuper ha).nodup_names).1
    exact hnotMem (List.mem_map.2 ⟨d.owner, howner, heq⟩)
  have hup : h.specialStart accessor r.signature = .ok start := by
    rw [specialStart_eq hcaller hsuper hd.get?_owner, ← hd.owner_eq, if_pos, find_ok_iff.2 hstart]
    simp [hname, hclass, hflag, hother, hsubclass]
  refine lookupSpecial_found hup ?_
  by_cases hinterface : start.isInterface
  · obtain rfl := hkind.resolve_left (not_not.2 hinterface)
    exact specialDeclaration?_own hinterface hfirst.declared
  · exact specialDeclaration?_first hinterface (name_of_get? hstart ▸ ha) hfirst

/-- **Special calls of superclass methods.** A class that asks for it calls a method by a reference
to one of its proper superclasses. If the method was resolved to one that an interface declares, the
call executes that one. Otherwise it executes the first declaration from the direct superclass on
up, if that is not an interface. (The class is always found to be a subclass of the declaring one
unless it is named like an array class.) -/
theorem lookupSpecial_superclass (hcaller : h.get? accessor = some caller)
    (hflag : caller.accessFlags.isSuper) (hsuper : caller.superName = some superName)
    (habove : ReflTransGen h.HasSuperclass superName s.className) (hname : s.name ≠ "<init>")
    (hr : h.resolveMethod accessor s false = .ok r) (hplain : ¬r.polymorphic) :
    ∃ start chain d, h.get? superName = some start ∧ h.superclassChain superName = .ok chain ∧
      h.Resolved r d ∧
      (d.owner.isInterface ∨ ¬h.isSubclass accessor d.owner.name →
        h.lookupSpecial accessor r = d.outcome) ∧
      (¬d.owner.isInterface → ¬IsArrayName accessor → h.isSubclass accessor d.owner.name) ∧
      ∀ first, FirstOn chain s.name s.descriptor (fun _ => True) first →
        ¬d.owner.isInterface → h.isSubclass accessor d.owner.name →
        ¬start.isInterface ∨ first.owner = start → h.lookupSpecial accessor r = first.outcome := by
  obtain ⟨upper, d, hupper, hd, hsignature, hfound⟩ := resolveMethod_class hr hplain
  obtain ⟨lower, ha⟩ := hupper.of_hasSuperclass habove
  obtain ⟨start, hstart⟩ := ha.exists_get?
  -- a method that no interface declares was found on the chain of the reference
  have hplace : ¬d.owner.isInterface → d.owner ∈ lower ++ upper := by
    intro hclass
    rcases hfound with hfirst | ⟨-, hdefault⟩
    · exact List.mem_append_right _ hfirst.mem
    · have hmem := mem_maximallySpecific_iff.1 (mem_of_preferredDefault hdefault)
      exact absurd (mem_inheritable_iff.1 hmem.1).1.owner.isInterface hclass
  refine ⟨start, lower ++ upper, d, hstart, superclassChain_ok_iff.2 ha, hd, ?_, ?_, ?_⟩
  · refine hd.lookupSpecial_own hcaller hsuper ?_
    rw [or_iff_not_imp_left]
    intro hclass
    obtain ⟨before, rest, hsplit⟩ := List.append_of_mem (hplace hclass)
    exact ⟨rest, (hsplit ▸ ha).of_append⟩
  · intro hclass harray
    have hwhole := Ascent.step hcaller hsuper ha
    rw [isSubclass_iff harray]
    exact .inr (hwhole.inherits (List.mem_cons_of_mem _ (hplace hclass)))
  · intro first hfirst hclass hsubclass hkind
    refine hd.lookupSpecial_up hcaller hflag hsuper ha (hplace hclass) hclass ?_ hsubclass hstart
      ?_ hkind
    · rwa [hsignature]
    · rwa [hsignature]

/-- The class `p/R` inherits a method from the interface `p/I`. Its subclasses `p/S` and `p/Y`
declare the method, their subclasses `p/X` and `p/Z` do not. -/
def inheritingClasses : Hierarchy :=
  [Bootstrap.object.build, idleInterface "p/I" [] 0x0001, bareClass "p/R" objectClass ["p/I"],
    idleClass "p/S" "p/R" 0x0001, bareClass "p/X" "p/S" [], idleClass "p/Y" "p/X" 0x0001,
    bareClass "p/Z" "p/Y" []].foldl add .empty

/-- The method of `p/S` is called in `p/Z`, and that of `p/Y` is executed. -/
theorem lookupSpecial_inheriting :
    inheritingClasses.resolveMethod "p/Z" ⟨"p/S", "m", "()V"⟩ false =
      .ok ⟨⟨"p/S", "m", "()V"⟩, 0x0001, false⟩ ∧
    inheritingClasses.lookupSpecial "p/Z" ⟨⟨"p/S", "m", "()V"⟩, 0x0001, false⟩ =
      .ok ⟨⟨"p/Y", "m", "()V"⟩, 0x0001⟩ := by
  have hr : inheritingClasses.resolveMethod "p/Z" ⟨"p/S", "m", "()V"⟩ false =
      .ok ⟨⟨"p/S", "m", "()V"⟩, 0x0001, false⟩ := by decide +kernel
  have hY : inheritingClasses.HasSuperclass "p/Y" "p/X" :=
    ⟨idleClass "p/Y" "p/X" 0x0001, by decide +kernel, rfl⟩
  have hX : inheritingClasses.HasSuperclass "p/X" "p/S" :=
    ⟨bareClass "p/X" "p/S" [], by decide +kernel, rfl⟩
  have hcaller : inheritingClasses.get? "p/Z" = some (bareClass "p/Z" "p/Y" []) := by
    decide +kernel
  have hchain : inheritingClasses.superclassChain "p/Y" = .ok [idleClass "p/Y" "p/X" 0x0001,
      bareClass "p/X" "p/S" [], idleClass "p/S" "p/R" 0x0001,
      bareClass "p/R" objectClass ["p/I"], Bootstrap.object.build] := by decide +kernel
  obtain ⟨start, chain, d, hstart, hchain', hd, -, hsubclass, hlookup⟩ :=
    lookupSpecial_superclass hcaller (by decide) rfl (.head hY (.single hX)) (by decide) hr
      (by simp)
  obtain rfl := Except.ok.inj (hchain'.symm.trans hchain)
  obtain rfl : start = idleClass "p/Y" "p/X" 0x0001 :=
    Option.some.inj (hstart.symm.trans (by decide +kernel))
  have howner : d.owner = idleClass "p/S" "p/R" 0x0001 :=
    Option.some.inj (hd.get?_owner.symm.trans (by decide +kernel))
  have hclass : ¬d.owner.isInterface := by
    rw [howner]
    decide
  refine ⟨hr, ?_⟩
  rw [hlookup ⟨idleClass "p/Y" "p/X" 0x0001, idleMethod 0x0001⟩
    ⟨trivial, by decide +kernel, [], _, rfl, by simp⟩ hclass (hsubclass hclass (by decide +kernel))
    (.inr rfl)]
  decide +kernel

/-- The method of `p/R` is called in `p/X`. The direct superclass `p/S` declares it, but the method
of the interface `p/I` is executed. -/
theorem lookupSpecial_interface :
    ∃ caller, inheritingClasses.get? "p/X" = some caller ∧ caller.accessFlags.isSuper ∧
      caller.superName = some "p/S" ∧ inheritingClasses.HasSuperclass "p/S" "p/R" ∧
      inheritingClasses.resolveMethod "p/X" ⟨"p/R", "m", "()V"⟩ false =
        .ok ⟨⟨"p/I", "m", "()V"⟩, 0x0001, false⟩ ∧
      ∃ chain, inheritingClasses.superclassChain "p/S" = .ok chain ∧
        FirstOn chain "m" "()V" (fun _ => True)
          ⟨idleClass "p/S" "p/R" 0x0001, idleMethod 0x0001⟩ ∧
        inheritingClasses.lookupSpecial "p/X" ⟨⟨"p/I", "m", "()V"⟩, 0x0001, false⟩ =
          .ok ⟨⟨"p/I", "m", "()V"⟩, 0x0001⟩ := by
  have hS : inheritingClasses.get? "p/S" = some (idleClass "p/S" "p/R" 0x0001) := by
    decide +kernel
  have hchain : inheritingClasses.superclassChain "p/S" = .ok [idleClass "p/S" "p/R" 0x0001,
      bareClass "p/R" objectClass ["p/I"], Bootstrap.object.build] := by decide +kernel
  exact ⟨bareClass "p/X" "p/S" [], by decide +kernel, by decide, rfl, ⟨_, hS, rfl⟩,
    by decide +kernel, _, hchain, ⟨trivial, by decide +kernel, [], _, rfl, by simp⟩,
    by decide +kernel⟩

end SymbolicBytecode.Hierarchy

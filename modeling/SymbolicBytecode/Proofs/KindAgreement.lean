import Mathlib
import SymbolicBytecode.Proofs.Frames
import SymbolicBytecode.Proofs.Phases

/-!
# The kind of a call and the kind of its method

A call checks that the method its reference is resolved to is static just if the call is. The
method that is selected then may be declared elsewhere. For static, virtual and interface calls it
is of the same kind. A special call is different if it starts at the direct superclass of the class
that makes it: there it takes the first declaration it finds, and that may be a static method which
hides the resolved one.
-/
namespace SymbolicBytecode

namespace Hierarchy

variable {h : Hierarchy} {resolved : ResolvedMethod} {i : Implementation}

theorem lookupStatic_isStatic (hi : h.lookupStatic resolved = .ok i) : i.accessFlags.isStatic := by
  obtain ⟨found, -, hi⟩ := except_bind_ok_iff.1 hi
  split at hi
  · split at hi
    · next hstatic =>
      cases hi
      exact hstatic
    · cases hi
  · cases hi

/-- Interfaces do not pass on their static methods. -/
theorem not_isStatic_of_mem_maximallySpecific {className name descriptor : String}
    {d : Declaration} (hd : d ∈ h.maximallySpecific className name descriptor) :
    ¬d.method.accessFlags.isStatic := by
  obtain ⟨c, -, hdeclared⟩ := List.mem_filterMap.1 (List.mem_of_mem_filter hd)
  obtain ⟨m, hm, rfl⟩ := Option.map_eq_some_iff.1 hdeclared
  have hkept := (Option.filter_eq_some_iff.1 hm).2
  simp_all

theorem selectDefault_not_isStatic {className : String} {s : Signature} {isInterface : Bool}
    (hi : h.selectDefault className s isInterface = .ok i) : ¬i.accessFlags.isStatic := by
  obtain ⟨d, hd, hi⟩ := selectDefault_ok hi
  rw [selected_ok hi]
  exact not_isStatic_of_mem_maximallySpecific hd

theorem selectOnChain_not_isStatic {isInterface : Bool} {chain : List ClassFile}
    (hi : selectOnChain resolved isInterface chain = some (.ok i)) : ¬i.accessFlags.isStatic := by
  induction chain with
  | nil => cases hi
  | cons c rest ih =>
    rw [selectOnChain] at hi
    split at hi
    · exact ih hi
    · split at hi
      · cases hi
      next hinstance =>
      split at hi
      · rw [selected_ok (Option.some.inj hi)]
        exact hinstance
      · exact ih hi

theorem lookupVirtual_not_isStatic {receiver : String} {isInterface : Bool} {d : Declaration}
    (hd : h.Resolved resolved d) (hinstance : ¬resolved.isStatic)
    (hi : h.lookupVirtual receiver resolved isInterface = .ok i) : ¬i.accessFlags.isStatic := by
  unfold lookupVirtual at hi
  dsimp only at hi
  split at hi
  · cases hi
  split at hi
  · rw [hd.ownDeclaration?] at hi
    cases hi
    have hflags : d.implementation.accessFlags = resolved.accessFlags := hd.accessFlags_eq
    rwa [hflags]
  · obtain ⟨chain, -, hi⟩ := except_bind_ok_iff.1 hi
    cases hchosen : selectOnChain resolved isInterface chain with
    | none =>
      rw [hchosen] at hi
      exact selectDefault_not_isStatic hi
    | some result =>
      rw [hchosen, Option.getD_some] at hi
      rw [hi] at hchosen
      exact selectOnChain_not_isStatic hchosen

/-- A special call of a method in class `accessor` starts at a class `start`, the direct superclass
of `accessor`, and not at the class that declares the method. -/
structure StartsAbove (h : Hierarchy) (accessor : String) (s : Signature) (start : ClassFile) :
    Prop where
  notConstructor : s.name ≠ "<init>"
  notOwn : s.className ≠ accessor
  notInterface : ∃ declaring, h.get? s.className = some declaring ∧ ¬declaring.isInterface
  inherits : h.isSubclass accessor s.className
  direct : ∃ current, h.get? accessor = some current ∧ current.accessFlags.isSuper ∧
    current.superName = some start.name
  known : h.get? start.name = some start

theorem specialStart_cases {accessor : String} {s : Signature} {start : ClassFile}
    (hstart : h.specialStart accessor s = .ok start) :
    h.get? s.className = some start ∨ h.StartsAbove accessor s start := by
  obtain ⟨current, hcurrent, hstart⟩ := except_bind_ok_iff.1 hstart
  obtain ⟨resolvedClass, hresolved, hstart⟩ := except_bind_ok_iff.1 hstart
  have hcurrent := find_ok_iff.1 hcurrent
  have hresolved := find_ok_iff.1 hresolved
  split at hstart
  · next superName hsuper =>
    split at hstart
    · next habove =>
      simp only [Bool.and_eq_true, decide_eq_true_eq] at habove
      obtain ⟨⟨⟨⟨hname, hclass⟩, hflag⟩, hother⟩, hsubclass⟩ := habove
      have hclass : ¬resolvedClass.isInterface := by simpa using hclass
      have hget := find_ok_iff.1 hstart
      have hstartName := name_of_get? hget
      refine .inr ⟨hname, hother, ⟨resolvedClass, hresolved, hclass⟩, hsubclass,
        ⟨current, hcurrent, hflag, ?_⟩, ?_⟩
      · rw [hstartName, hsuper]
      · rw [hstartName, hget]
    · cases hstart
      exact .inl hresolved
  · cases hstart
    exact .inl hresolved

theorem findInSuperclasses_own {c : ClassFile} {name descriptor : String} {m : Method}
    {found : Option Declaration} (hget : h.get? c.name = some c)
    (hm : c.method? name descriptor = some m)
    (hfound : h.findInSuperclasses c.name name descriptor = .ok found) : found = some ⟨c, m⟩ := by
  obtain ⟨chain, hchain, hfirst⟩ := except_bind_ok_iff.1 hfound
  have hfirst : firstDeclaring name descriptor chain = found := Except.ok.inj hfirst
  have hhead : ∃ rest, chain = c :: rest := by
    cases superclassChain_ok_iff.1 hchain with
    | root hget' _ => exact ⟨[], by simp_all⟩
    | @step _ _ _ rest hget' _ _ => exact ⟨rest, by simp_all⟩
  obtain ⟨rest, rfl⟩ := hhead
  rw [← hfirst]
  simp [firstDeclaring, hm]

/-- From the class that declares the resolved method, a special call finds that method. -/
theorem Resolved.specialDeclaration? {d : Declaration} {found : Option Declaration}
    (hd : h.Resolved resolved d)
    (hfound : h.specialDeclaration? d.owner resolved.signature = .ok found) : found = some d := by
  unfold Hierarchy.specialDeclaration? at hfound
  split at hfound
  · rw [hd.method?_eq] at hfound
    exact (Except.ok.inj hfound).symm
  · exact findInSuperclasses_own hd.owner hd.method?_eq hfound

/-- A static method that a special call finds on its way hides the resolved one. -/
structure HiddenBy (h : Hierarchy) (accessor : String) (s : Signature) (d : Declaration) :
    Prop where
  found : ∃ start, h.StartsAbove accessor s start ∧ h.specialDeclaration? start s = .ok (some d)
  isStatic : d.method.accessFlags.isStatic

theorem HiddenBy.declares {accessor : String} {s : Signature} {d : Declaration}
    (hhidden : h.HiddenBy accessor s d) : h.Declares d := by
  obtain ⟨start, habove, hfound⟩ := hhidden.found
  exact (declares_of_specialDeclaration? habove.known hfound).toDeclares

theorem Declares.eq_of_implementation {d d' : Declaration} (hd : h.Declares d)
    (hd' : h.Declares d') (hsame : d.implementation = d'.implementation) : d = d' :=
  hd.eq_of_signature hd' (congrArg Implementation.signature hsame)

theorem lookupSpecial_isStatic {accessor : String} {d : Declaration} (hd : h.Resolved resolved d)
    (hinstance : ¬resolved.isStatic) (hi : h.lookupSpecial accessor resolved = .ok i)
    (hstatic : i.accessFlags.isStatic) :
    ∃ d', h.HiddenBy accessor resolved.signature d' ∧ i = d'.implementation := by
  obtain ⟨start, hstart, hi⟩ := except_bind_ok_iff.1 hi
  obtain ⟨found, hfound, hi⟩ := except_bind_ok_iff.1 hi
  split at hi
  · next d' =>
    obtain rfl := selected_ok hi
    rcases specialStart_cases hstart with hown | habove
    · -- the call starts at the class of the resolved method, which is not static
      obtain rfl := Option.some.inj (hown.symm.trans hd.get?_owner)
      cases hd.specialDeclaration? hfound
      have hflags : d.implementation.accessFlags = resolved.accessFlags := hd.accessFlags_eq
      rw [hflags] at hstatic
      exact absurd hstatic hinstance
    · exact ⟨d', ⟨⟨start, habove, hfound⟩, hstatic⟩, rfl⟩
  · exact absurd hstatic (selectDefault_not_isStatic hi)

end Hierarchy

/-- What was checked before the method was selected. -/
theorem isStatic_of_checkOperands {s : State} {i : Invocation} (hplain : ¬i.method.polymorphic)
    (hchecked : checkOperands s i = none) : i.method.isStatic ↔ i.kind = .static := by
  unfold checkOperands at hchecked
  split at hchecked
  · cases hchecked
  · next hagree =>
    have hsame : i.method.isStatic = (i.kind == .static) := by simpa [hplain] using hagree
    rw [hsame, beq_iff_eq]

namespace Exec

variable {policy : InitializationPolicy} {oracle : Oracle} {kind : InvokeKind} {i : Invocation}
  {σ τ : Session}

theorem lookup_isStatic_iff {m : Implementation} {d : Declaration}
    (hd : σ.state.hierarchy.Resolved i.method d) (hkind : i.method.isStatic ↔ i.kind = .static)
    (hlookup : (lookup i).apply σ = (.ok (.ok m), τ)) :
    m.accessFlags.isStatic ↔ i.kind = .static ∨ i.kind = .special ∧
      ∃ d, σ.state.hierarchy.HiddenBy i.accessor i.method.signature d ∧ m = d.implementation := by
  rw [lookup, apply_state_bind] at hlookup
  cases hi : i.kind with
  | static =>
    rw [hi] at hlookup
    have hfound := Hierarchy.lookupStatic_isStatic (Except.ok.inj (Prod.mk.inj hlookup).1)
    simp [hfound]
  | special =>
    rw [hi] at hlookup hkind
    have hinstance : ¬i.method.isStatic := by simp [hkind]
    have hfound := Except.ok.inj (Prod.mk.inj hlookup).1
    constructor
    · intro hstatic
      exact .inr ⟨rfl, Hierarchy.lookupSpecial_isStatic hd hinstance hfound hstatic⟩
    · rintro (hstatic | ⟨-, d', hhidden, rfl⟩)
      · cases hstatic
      · exact hhidden.isStatic
  | virtual =>
    rw [hi] at hlookup hkind
    have hinstance : ¬i.method.isStatic := by simp [hkind]
    obtain ⟨className, ρ, -, hlookup⟩ := apply_bind_ok_iff.1 hlookup
    have hfound := Except.ok.inj (Prod.mk.inj hlookup).1
    simp [Hierarchy.lookupVirtual_not_isStatic hd hinstance hfound]
  | interface =>
    rw [hi] at hlookup hkind
    have hinstance : ¬i.method.isStatic := by simp [hkind]
    obtain ⟨className, ρ, -, hlookup⟩ := apply_bind_ok_iff.1 hlookup
    have hfound := Except.ok.inj (Prod.mk.inj hlookup).1
    simp [Hierarchy.lookupVirtual_not_isStatic hd hinstance hfound]

theorem popOperands_hierarchy {count : Nat} {args : List Value}
    (hpop : (popOperands count).apply σ = (.ok args, τ)) :
    τ.state.hierarchy = σ.state.hierarchy := by
  rcases popOperands_cases count σ with ⟨e, herror⟩ | ⟨f, rest, -, hok⟩
  · rw [herror] at hpop
    cases hpop
  · rw [hok] at hpop
    cases hpop
    rfl

theorem Commits.found {strategies : Strategies} {found : Option Implementation}
    {method : Signature} (hcommits : Commits strategies i σ found (.invoked method) τ) :
    ¬i.method.polymorphic ∧ ∃ m, found = some m := by
  cases hcommits with
  | invoked hplain => exact ⟨hplain, _, rfl⟩

/-- A frame is pushed for the declaration that the call has selected. -/
theorem Commits.declaration {strategies : Strategies} {s method : Signature} {m : Implementation}
    (hcommits : Commits strategies i σ (some m) (.invoked method) τ)
    (himplements : σ.state.hierarchy.ImplementsAs s m) :
    ∃ d, σ.state.hierarchy.Declares d ∧ m = d.implementation ∧
      method = d.implementation.signature ∧ d.method.code.isSome ∧
      ¬d.method.accessFlags.isNative ∧ ¬d.method.accessFlags.isAbstract := by
  obtain ⟨d, hd, rfl⟩ := himplements
  cases hcommits with
  | invoked hplain hnative habstract harity hpop hpush =>
    obtain ⟨c, m, hget, hm, hcode⟩ := pushFrame_code hpush
    rw [popOperands_hierarchy hpop] at hget
    obtain rfl := Option.some.inj (hget.symm.trans hd.owner)
    obtain rfl := Option.some.inj (hm.symm.trans hd.method)
    exact ⟨d, hd.toDeclares, rfl, rfl, hcode, hnative, habstract⟩

end Exec

namespace Engine

variable {engine : Engine} {σ τ : Session} {f : Frame} {rest : List Frame} {kind : InvokeKind}
  {method : Signature}

/-- **What a call may execute.** With the usual strategies a call pushes a frame for a declared
method with code that is neither native nor abstract. The method is static if the call is, and not
static otherwise, with one exception: a special call that starts at the direct superclass of its own
class executes a static method that hides the resolved one there. -/
theorem step_invoked_declaration (hstrategies : engine.strategies = .standard)
    (hstack : σ.state.stack = f :: rest) (hopcode : f.code[f.pc]? = some kind.opcode)
    (hstep : engine.step.apply σ = (.ok (.invoked method), τ)) :
    ∃ d : Declaration, σ.state.hierarchy.get? method.className = some d.owner ∧
      d.owner.method? method.name method.descriptor = some d.method ∧ d.method.code.isSome ∧
      ¬d.method.accessFlags.isNative ∧ ¬d.method.accessFlags.isAbstract ∧
      (d.method.accessFlags.isStatic ↔ kind = .static ∨ kind = .special ∧
        ∃ i, σ.state.Resolves kind i ∧
          σ.state.hierarchy.HiddenBy f.owner.name i.method.signature d) := by
  rw [apply_step engine hstack hopcode, invoke, hstrategies] at hstep
  cases Exec.invoke_ok hstep with | invoked hphases =>
  obtain ⟨i, ρ, π, ω, found, hresolve, hchecked, hprepare, hselect, hsame, hcommits⟩ :=
    Exec.invocationPhases_ok hphases
  obtain ⟨hstate, -, hresolves, g, _, hg, haccessor⟩ := Exec.resolvePhase_ok hresolve
  obtain ⟨rfl, -⟩ := List.cons.inj (hg.symm.trans hstack)
  have hhierarchy : π.state.hierarchy = σ.state.hierarchy := by
    rw [(Exec.preparePhase_ok hprepare).hierarchy, hstate]
  replace hcommits : Exec.Commits .standard i ω found (.invoked method) τ := hcommits
  obtain ⟨hplain, m, rfl⟩ := hcommits.found
  have hlookup : (Exec.lookup i).apply π = (.ok (.ok m), π) := by
    rcases (Exec.selectPhase_ok hselect).2 m rfl with ⟨hpolymorphic, -⟩ | ⟨-, hlookup⟩
    · exact absurd hpolymorphic hplain
    · exact hlookup
  have himplements : ω.state.hierarchy.ImplementsAs i.method.signature m := by
    rw [hsame]
    exact Exec.lookup_implements hlookup
  obtain ⟨d, hdeclares, rfl, rfl, hcode, hnative, habstract⟩ := hcommits.declaration himplements
  rw [hsame, hhierarchy] at hdeclares
  obtain ⟨r, hr⟩ : ∃ r, π.state.hierarchy.Resolved i.method r := by
    rw [hhierarchy]
    obtain ⟨_, _, -, -, -, -, hmethod⟩ := hresolves
    exact Hierarchy.resolveMethod_declares hmethod hplain
  have hkind := isStatic_of_checkOperands hplain hchecked
  have hstatic := Exec.lookup_isStatic_iff hr hkind hlookup
  rw [hhierarchy, hresolves.kind_eq, haccessor] at hstatic
  refine ⟨d, hdeclares.owner, hdeclares.method, hcode, hnative, habstract, fun hd => ?_, ?_⟩
  · rcases hstatic.1 hd with hkind | ⟨hspecial, d', hhidden, hequal⟩
    · exact .inl hkind
    · obtain rfl := hdeclares.eq_of_implementation hhidden.declares hequal
      exact .inr ⟨hspecial, i, hresolves, hhidden⟩
  · rintro (hkind | ⟨-, _, -, hhidden⟩)
    · exact hstatic.2 (.inl hkind)
    · exact hhidden.isStatic

/-- A class with a method of this name, static or not, that does nothing. -/
def echo (name superName : String) (accessFlags : AccessFlags) : ClassFile :=
  ({ ClassOutline.publicClass name with
    superName := some superName
    methods := [⟨accessFlags, "m", "()V", some ⟨1, 1, [0xb1], []⟩⟩] } : ClassOutline).build

/-- A class that calls the method of its superclass's superclass. -/
def echoCaller : ClassFile :=
  ({ ClassOutline.publicClass "C" with
    superName := some "B"
    constants := [.methodRef ⟨"A", "m", "()V"⟩] } : ClassOutline).build

/-- In between, the method is hidden by a static one. -/
def echoClasses : Hierarchy :=
  [Bootstrap.object.build, echo "A" "java/lang/Object" 0x0001, echo "B" "A" 0x0009,
    echoCaller].foldl Hierarchy.add .empty

def echoFrame (kind : InvokeKind) : Frame :=
  ⟨⟨"C", "run", "()V"⟩, echoCaller, [kind.opcode, 0, 6], [], 0, 0, [], [.reference (.concrete 0)]⟩

def echoCall (kind : InvokeKind) (receiver : String) : State :=
  { State.create echoClasses none .ample with
    stack := [echoFrame kind]
    heap := Heap.empty.add (.object receiver ∅) }

def echoEngine : Engine := ⟨none, .ample, ⟨false, false⟩, .fixed false, .standard⟩

theorem step_echoCall :
    ∃ τ, ∃ d : Declaration, echoEngine.step.apply (.start (echoCall .virtual "A")) =
        (.ok (.invoked ⟨"A", "m", "()V"⟩), τ) ∧
      echoClasses.get? "A" = some d.owner ∧ d.owner.method? "m" "()V" = some d.method ∧
      ¬d.method.accessFlags.isStatic := by
  have hstep : echoEngine.step.apply (.start (echoCall .virtual "A")) =
      (.ok (.invoked ⟨"A", "m", "()V"⟩),
        (echoEngine.step.apply (.start (echoCall .virtual "A"))).2) :=
    Prod.ext (by decide +kernel) rfl
  have hopcode : (echoFrame .virtual).code[(echoFrame .virtual).pc]? =
      some InvokeKind.virtual.opcode := rfl
  obtain ⟨d, howner, hmethod, -, -, -, hstatic⟩ :=
    step_invoked_declaration rfl (f := echoFrame .virtual) rfl hopcode hstep
  exact ⟨_, d, hstep, howner, hmethod, by simp [hstatic]⟩

/-- A special call that executes a static method. -/
theorem step_echoCall_hidden :
    ∃ τ c m, (echoFrame .special).code[(echoFrame .special).pc]? =
        some InvokeKind.special.opcode ∧
      echoEngine.step.apply (.start (echoCall .special "C")) =
        (.ok (.invoked ⟨"B", "m", "()V"⟩), τ) ∧
      echoClasses.get? "B" = some c ∧ c.method? "m" "()V" = some m ∧ m.accessFlags.isStatic := by
  have hstep : echoEngine.step.apply (.start (echoCall .special "C")) =
      (.ok (.invoked ⟨"B", "m", "()V"⟩),
        (echoEngine.step.apply (.start (echoCall .special "C"))).2) :=
    Prod.ext (by decide +kernel) rfl
  exact ⟨_, echo "B" "A" 0x0009, ⟨0x0009, "m", "()V", some ⟨1, 1, [0xb1], []⟩⟩, rfl, hstep,
    by decide +kernel, rfl, rfl⟩

end Engine

end SymbolicBytecode

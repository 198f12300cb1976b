import SymbolicBytecode.ClassFile.Basic

/-!
# The class hierarchy

The known classes by name. A class is always found under its own name. The supertypes that classes
declare need not be known, and nothing prevents them from going round in a circle; the walks over
them keep track of where they have been and end because only finitely many classes are known.
-/

namespace SymbolicBytecode

/-- Why the class of one declaration does not fit the use that is made of it. -/
inductive ClassChange where
  | isInterface (className : String)
  | notInterface (className : String)
  | notImplemented (receiver interface : String)
  | isStatic (method : Signature)
  | notStatic (method : Signature)
  | conflictingDefaults (method : Signature)
  deriving DecidableEq, Repr

def ClassChange.text : ClassChange → String
  | isInterface className => className ++ " is an interface"
  | notInterface className => className ++ " is not an interface"
  | notImplemented receiver interface => receiver ++ " does not implement " ++ interface
  | isStatic method => method.text ++ " is static"
  | notStatic method => method.text ++ " is not static"
  | conflictingDefaults method => "conflicting default methods for " ++ method.text

inductive LinkError where
  | classNotFound (className : String)
  | classIllFormed (className : String)
  | incompatible (change : ClassChange)
  | methodNotFound (method : Signature)
  | methodNotAccessible (method : Signature)
  | methodAbstract (method : Signature)
  deriving DecidableEq, Repr

def LinkError.message : LinkError → String
  | classNotFound className => "no class file for " ++ className
  | classIllFormed className => "the class file for " ++ className ++ " is ill-formed"
  | incompatible change => "incompatible class change: " ++ change.text
  | methodNotFound method => "method " ++ method.text ++ " not found"
  | methodNotAccessible method => "method " ++ method.text ++ " is not accessible"
  | methodAbstract method => "method " ++ method.text ++ " is abstract"

structure Hierarchy where
  classes : Table ClassFile
  named : ∀ name c, classes.get? name = some c → c.name = name

namespace Hierarchy

def empty : Hierarchy := ⟨∅, fun _ _ h => nomatch h⟩

instance : Inhabited Hierarchy := ⟨empty⟩

instance : DecidableEq Hierarchy := fun s t =>
  if h : s.classes = t.classes then
    .isTrue (by cases s; cases t; cases h; rfl)
  else
    .isFalse (fun e => h (congrArg classes e))

/-- Add a class, in place of any class of the same name. -/
def add (h : Hierarchy) (c : ClassFile) : Hierarchy where
  classes := h.classes.insert c.name c
  named := by
    intro name d hd
    rw [Table.get?_insert] at hd
    split at hd
    · next heq => cases hd; exact heq.symm
    · exact h.named name d hd

def get? (h : Hierarchy) (name : String) : Option ClassFile := h.classes.get? name

def contains (h : Hierarchy) (name : String) : Bool := h.classes.contains name

def size (h : Hierarchy) : Nat := h.classes.size

def find (h : Hierarchy) (name : String) : Except LinkError ClassFile :=
  match h.get? name with
  | some c => .ok c
  | none => .error (.classNotFound name)

/-- The supertypes that a class declares; none for an unknown class. -/
def declaredSupertypes (h : Hierarchy) (name : String) : List String :=
  match h.get? name with
  | some c => c.supertypes
  | none => []

@[simp] theorem get?_add (h : Hierarchy) (c : ClassFile) (name : String) :
    (h.add c).get? name = if name = c.name then some c else h.get? name :=
  Table.get?_insert _ _ _ _

/-- The cost of one known class in a walk: itself and the supertypes it leads to. -/
def walkCost (c : ClassFile) : Nat := 1 + c.supertypes.length

/-- What a walk may still come across: the known classes that it has not seen, each with its cost.
Every walk below gets smaller in this measure. -/
def unseenCost (seen : List String) : List (String × ClassFile) → Nat
  | [] => 0
  | (name, c) :: rest => (if name ∈ seen then 0 else walkCost c) + unseenCost seen rest

theorem unseenCost_cons_le (name : String) (seen : List String) (l : List (String × ClassFile)) :
    unseenCost (name :: seen) l ≤ unseenCost seen l := by
  induction l with
  | nil => exact Nat.le_refl _
  | cons head rest ih =>
    obtain ⟨k, c⟩ := head
    simp only [unseenCost, List.mem_cons]
    split <;> split <;> grind

theorem unseenCost_cons_of_mem {name : String} {c : ClassFile} {seen : List String}
    {l : List (String × ClassFile)} (hmem : (name, c) ∈ l) (hseen : name ∉ seen) :
    unseenCost (name :: seen) l + walkCost c ≤ unseenCost seen l := by
  induction l with
  | nil => cases hmem
  | cons head rest ih =>
    obtain ⟨k, d⟩ := head
    have hle := unseenCost_cons_le name seen rest
    simp only [unseenCost, List.mem_cons]
    rcases List.mem_cons.1 hmem with heq | hrest
    · cases heq
      simp only [true_or, if_true, hseen, if_false]
      omega
    · have := ih hrest
      split <;> split <;> grind

/-- The work that is left to a walk which has seen the given classes. -/
def remaining (h : Hierarchy) (seen : List String) : Nat := unseenCost seen h.classes.entries

theorem remaining_cons_of_get? {h : Hierarchy} {name : String} {c : ClassFile}
    {seen : List String} (hget : h.get? name = some c) (hseen : name ∉ seen) :
    h.remaining (name :: seen) + walkCost c ≤ h.remaining seen :=
  unseenCost_cons_of_mem ((Table.mem_entries_iff _ _ _).2 hget) hseen

theorem remaining_cons_le (h : Hierarchy) (name : String) (seen : List String) :
    h.remaining (name :: seen) ≤ h.remaining seen :=
  unseenCost_cons_le name seen _

end Hierarchy

end SymbolicBytecode

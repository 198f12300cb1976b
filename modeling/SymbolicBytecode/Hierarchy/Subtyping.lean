import SymbolicBytecode.Hierarchy.Basic

/-!
# Subtyping

`reached` lists the supertypes of a class in breadth-first order: the class, its declared
supertypes, theirs, and so on, each name once and unknown names included. `isSubclass` decides
subtyping between all names of classes and array classes.
-/

namespace SymbolicBytecode

def objectClass : String := "java/lang/Object"

def cloneableClass : String := "java/lang/Cloneable"

def serializableClass : String := "java/io/Serializable"

namespace Hierarchy

/-- Breadth-first walk: `seen` holds the visited names, latest first, and `queue` those to visit. -/
def walk (h : Hierarchy) (seen : List String) : List String → List String
  | [] => seen.reverse
  | name :: queue =>
    if name ∈ seen then h.walk seen queue
    else h.walk (name :: seen) (queue ++ h.declaredSupertypes name)
termination_by queue => h.remaining seen + queue.length
decreasing_by
  · simp
  · next hseen =>
    unfold declaredSupertypes
    split
    · next c hget =>
      have := remaining_cons_of_get? hget hseen
      simp only [List.length_append, List.length_cons]
      unfold walkCost at this
      omega
    · have := h.remaining_cons_le name seen
      simp only [List.append_nil, List.length_cons]
      omega

/-- A class and all its supertypes. -/
def reached (h : Hierarchy) (name : String) : List String := h.walk [] [name]

/-- The known superinterfaces of a class, direct or not, those of its superclasses included. -/
def superinterfaces (h : Hierarchy) (name : String) : List ClassFile :=
  ((h.reached name).filter (· ≠ name)).filterMap fun n => (h.get? n).filter (·.isInterface)

/-- Whether `sub` is `sup` or a subtype of it. Every name is below the root class. Array classes are
below the two array interfaces, and below other array classes as their component types are; the
components of unequal primitive types are never related. -/
def isSubclass (h : Hierarchy) (sub sup : String) : Bool :=
  if sub = sup ∨ sup = objectClass then true
  else
    match _hsub : sub.toList with
    | '[' :: subComponent =>
      if sup = cloneableClass ∨ sup = serializableClass then true
      else
        match sup.toList with
        | '[' :: supComponent =>
          match _hread : FieldType.read subComponent, FieldType.read supComponent with
          | some (subType, []), some (supType, []) =>
            match _hname : subType.className?, supType.className? with
            | some subName, some supName => h.isSubclass subName supName
            | _, _ => subType = supType
          | _, _ => false
        | _ => false
    | _ => (h.reached sub).contains sup
termination_by sub.length
decreasing_by
  have hle := FieldType.className?_length_le _hread _hname
  have hlength : sub.length = subComponent.length + 1 := by
    rw [← String.length_toList, _hsub, List.length_cons]
  omega

end Hierarchy

end SymbolicBytecode

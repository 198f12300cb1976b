import SymbolicBytecode.Hierarchy.Basic

/-!
# Superclass chains

The chain of a class is the class followed by its superclasses up to one that has none. There is no
chain through an unknown class, nor round a circle. Objects have the instance fields of
every class on the chain of theirs.
-/

namespace SymbolicBytecode.Hierarchy

/-- The chain from `current` on, for a walk that began at `start` and has seen other classes. -/
def chainFrom (h : Hierarchy) (start : String) (seen : List String) (current : String) :
    Except LinkError (List ClassFile) :=
  if _hseen : current ∈ seen then .error (.classIllFormed start)
  else
    match _hget : h.get? current with
    | none => .error (.classNotFound current)
    | some c =>
      match c.superName with
      | none => .ok [c]
      | some superName => do
        let rest ← h.chainFrom start (current :: seen) superName
        return c :: rest
termination_by h.remaining seen
decreasing_by
  have := remaining_cons_of_get? _hget _hseen
  unfold walkCost at this
  omega

def superclassChain (h : Hierarchy) (name : String) : Except LinkError (List ClassFile) :=
  h.chainFrom name [] name

/-- The names on the superclass walk from `current` on that have not been seen. The walk does not
go on from an interface or an unknown class. -/
def walkUp (h : Hierarchy) (seen : List String) (current : String) : List String :=
  if _hseen : current ∈ seen then []
  else
    match _hget : h.get? current with
    | none => [current]
    | some c =>
      if c.isInterface then [current]
      else
        match c.superName with
        | none => [current]
        | some superName => current :: h.walkUp (current :: seen) superName
termination_by h.remaining seen
decreasing_by
  have := remaining_cons_of_get? _hget _hseen
  unfold walkCost at this
  omega

/-- The classes that initializing a class can come to, each once: the class, then its superclass,
and so on. Interfaces do not cause their superclass to be initialized. -/
def initializationChain (h : Hierarchy) (name : String) : List String := h.walkUp [] name

def addFields (c : ClassFile) (fields : Table FieldType) :
    List Field → Except LinkError (Table FieldType)
  | [] => .ok fields
  | f :: rest =>
    match FieldType.parse f.descriptor with
    | .ok type => addFields c (fields.insert f.name type) rest
    | .error _ => .error (.classIllFormed c.name)

/-- The fields of a chain that is given root first; a field hides one of the same name above it. -/
def layOut (fields : Table FieldType) : List ClassFile → Except LinkError (Table FieldType)
  | [] => .ok fields
  | c :: rest => do
    let fields ← addFields c fields c.instanceFields
    layOut fields rest

def instanceFields (h : Hierarchy) (name : String) : Except LinkError (Table FieldType) := do
  let chain ← h.superclassChain name
  layOut ∅ chain.reverse

end SymbolicBytecode.Hierarchy

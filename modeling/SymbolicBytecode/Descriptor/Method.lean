import SymbolicBytecode.Descriptor.FieldType

/-!
# Method descriptors

The parameter types of a method between parentheses, then its return type, with `V` for none.
-/

namespace SymbolicBytecode

structure MethodDescriptor where
  params : List FieldType
  /-- The return type, `none` for a method that returns nothing. -/
  result : Option FieldType
  deriving DecidableEq, Repr

namespace MethodDescriptor

/-- As many types as can be read one after the other, with what follows them. -/
def readTypes (cs : List Char) : List FieldType × List Char :=
  match _hread : FieldType.read cs with
  | none => ([], cs)
  | some (t, rest) =>
    let (ts, rest) := readTypes rest
    (t :: ts, rest)
termination_by cs.length
decreasing_by exact FieldType.read_length_lt _hread

def readResult : List Char → Option (Option FieldType × List Char)
  | 'V' :: rest => some (none, rest)
  | cs => (FieldType.read cs).map fun (t, rest) => (some t, rest)

/-- The method descriptor that starts a text, with what follows it. -/
def read : List Char → Option (MethodDescriptor × List Char)
  | '(' :: cs =>
    match readTypes cs with
    | (params, ')' :: rest) => (readResult rest).map fun (result, rest) => (⟨params, result⟩, rest)
    | _ => none
  | _ => none

def parse (descriptor : String) : Except MalformedDescriptor MethodDescriptor :=
  match read descriptor.toList with
  | some (d, []) => .ok d
  | _ => .error ⟨descriptor⟩

def chars (d : MethodDescriptor) : List Char :=
  '(' :: (d.params.flatMap FieldType.chars ++ ')' :: (d.result.map FieldType.chars).getD ['V'])

def text (d : MethodDescriptor) : String := String.ofList d.chars

/-- The local variable slots that the parameters take, not counting a receiver. -/
def paramSlots (d : MethodDescriptor) : Nat :=
  d.params.foldl (fun slots t => slots + if t.isWide then 2 else 1) 0

end MethodDescriptor

end SymbolicBytecode

import SymbolicBytecode.Inspection

/-!
# Field types

The type of a field, a parameter or a value, and its descriptor: one letter for a primitive type,
a class name between `L` and `;`, and `[` before the descriptor of an array's components.
`FieldType.text` writes a descriptor, `FieldType.read` takes one off the front of a text, and
`FieldType.parse` reads a text that holds nothing else.
-/

namespace SymbolicBytecode

inductive FieldType where
  | byte
  | char
  | double
  | float
  | int
  | long
  | short
  | boolean
  | reference (className : String)
  | array (component : FieldType)
  deriving DecidableEq, Repr

/-- A text that is not a descriptor of the kind it was read as. -/
structure MalformedDescriptor where
  text : String
  deriving DecidableEq, Repr

def MalformedDescriptor.message (e : MalformedDescriptor) : String :=
  "malformed descriptor " ++ Text.quoted e.text

namespace FieldType

def chars : FieldType → List Char
  | byte => ['B']
  | char => ['C']
  | double => ['D']
  | float => ['F']
  | int => ['I']
  | long => ['J']
  | short => ['S']
  | boolean => ['Z']
  | reference name => 'L' :: (name.toList ++ [';'])
  | array component => '[' :: component.chars

/-- The descriptor of a type. -/
def text (t : FieldType) : String := String.ofList t.chars

/-- A class name and the `;` that ends it, taken off the front of a text. -/
def readName (cs : List Char) : Option (FieldType × List Char) :=
  match cs.takeWhile (· ≠ ';'), cs.dropWhile (· ≠ ';') with
  | c :: name, _ :: rest => some (reference (String.ofList (c :: name)), rest)
  | _, _ => none

/-- The type whose descriptor starts a text, with what follows it. -/
def read : List Char → Option (FieldType × List Char)
  | 'B' :: rest => some (byte, rest)
  | 'C' :: rest => some (char, rest)
  | 'D' :: rest => some (double, rest)
  | 'F' :: rest => some (float, rest)
  | 'I' :: rest => some (int, rest)
  | 'J' :: rest => some (long, rest)
  | 'S' :: rest => some (short, rest)
  | 'Z' :: rest => some (boolean, rest)
  | 'L' :: rest => readName rest
  | '[' :: rest => (read rest).map fun (component, rest) => (array component, rest)
  | _ => none

def parse (descriptor : String) : Except MalformedDescriptor FieldType :=
  match read descriptor.toList with
  | some (t, []) => .ok t
  | _ => .error ⟨descriptor⟩

/-- Two local variable slots are taken by a `long` or a `double`. -/
def isWide : FieldType → Bool
  | long | double => true
  | _ => false

/-- The class of the values of a reference type; an array class is named by its descriptor. -/
def className? : FieldType → Option String
  | reference name => some name
  | array component => some (array component).text
  | _ => none

def inspect : FieldType → Inspection
  | byte => .atom "Byte"
  | char => .atom "Char"
  | double => .atom "Double"
  | float => .atom "Float"
  | int => .atom "Int"
  | long => .atom "Long"
  | short => .atom "Short"
  | boolean => .atom "Boolean"
  | reference name => .tuple "Reference" [.text name]
  | array component => .tuple "Array" [component.inspect]

theorem readName_length_lt {cs rest : List Char} {t : FieldType}
    (h : readName cs = some (t, rest)) : rest.length < cs.length := by
  unfold readName at h
  split at h
  · next c name d tail htake hdrop =>
    cases h
    have hsplit : cs.takeWhile (· ≠ ';') ++ cs.dropWhile (· ≠ ';') = cs :=
      List.takeWhile_append_dropWhile
    rw [htake, hdrop] at hsplit
    rw [← hsplit]
    simp
    omega
  · cases h

/-- A descriptor is never empty. -/
theorem read_length_lt {cs rest : List Char} {t : FieldType} (h : read cs = some (t, rest)) :
    rest.length < cs.length := by
  fun_induction read cs generalizing t with
  | case9 cs =>
    have := readName_length_lt h
    simp
    omega
  | case10 cs ih =>
    obtain ⟨⟨u, r⟩, hu, he⟩ := Option.map_eq_some_iff.1 h
    cases he
    have := ih hu
    simp
    omega
  | case11 => cases h
  | _ => cases h; simp

theorem eq_of_readName {cs rest : List Char} {t : FieldType}
    (h : readName cs = some (t, rest)) : 'L' :: cs = t.chars ++ rest := by
  unfold readName at h
  split at h
  · next c name d tail htake hdrop =>
    cases h
    have hsplit : cs.takeWhile (· ≠ ';') ++ cs.dropWhile (· ≠ ';') = cs :=
      List.takeWhile_append_dropWhile
    have hd : d = ';' := by
      have := List.head?_dropWhile_not (fun c => c ≠ ';') cs
      rw [hdrop] at this
      simpa using this
    rw [htake, hdrop, hd] at hsplit
    rw [← hsplit]
    simp [chars]
  · cases h

/-- Reading loses nothing: the text read is the descriptor of the type. -/
theorem eq_of_read {cs rest : List Char} {t : FieldType} (h : read cs = some (t, rest)) :
    cs = t.chars ++ rest := by
  fun_induction read cs generalizing t with
  | case9 cs => exact eq_of_readName h
  | case10 cs ih =>
    obtain ⟨⟨u, r⟩, hu, he⟩ := Option.map_eq_some_iff.1 h
    cases he
    rw [chars, List.cons_append, ← ih hu]
  | case11 => cases h
  | _ => cases h; simp [chars]

/-- A class name is no longer than the descriptor it was read from. -/
theorem className?_length_le {cs rest : List Char} {t : FieldType} {name : String}
    (h : read cs = some (t, rest)) (hname : t.className? = some name) :
    name.length ≤ cs.length := by
  rw [eq_of_read h]
  cases t with
  | reference className =>
    simp only [className?, Option.some.injEq] at hname
    subst hname
    simp only [chars, List.length_append, List.length_cons, String.length_toList]
    omega
  | array component =>
    simp only [className?, Option.some.injEq, text] at hname
    subst hname
    simp only [String.length_ofList, List.length_append]
    omega
  | _ => cases hname

end FieldType

end SymbolicBytecode

import SymbolicBytecode.Text.Quoted

/-!
# Inspection trees

Diagnostics show a datum with the names of its constructors and fields. The shape is an
`Inspection`; `compact` writes it on one line, `indented` with one item to a line, four blanks
for each level and a comma after every item.
-/

namespace SymbolicBytecode

inductive Inspection where
  | atom (text : String)
  | record (name : String) (fields : List (String × Inspection))
  | tuple (name : String) (items : List Inspection)
  | list (items : List Inspection)

namespace Inspection

def text (s : String) : Inspection := .atom (Text.quoted s)

def nat (n : Nat) : Inspection := .atom (toString n)

def option (value : Option Inspection) : Inspection :=
  match value with
  | none => .atom "None"
  | some value => .tuple "Some" [value]

mutual

def compact : Inspection → String
  | .atom text => text
  | .record name fields => name ++ " \x7b " ++ ", ".intercalate (compactFields fields) ++ " \x7d"
  | .tuple name items => name ++ "(" ++ ", ".intercalate (compactItems items) ++ ")"
  | .list items => "[" ++ ", ".intercalate (compactItems items) ++ "]"

def compactItems : List Inspection → List String
  | [] => []
  | item :: rest => item.compact :: compactItems rest

def compactFields : List (String × Inspection) → List String
  | [] => []
  | (name, item) :: rest => (name ++ ": " ++ item.compact) :: compactFields rest

end

def margin (depth : Nat) : String := String.ofList (List.replicate (4 * depth) ' ')

mutual

/-- The text of a tree whose first line is already at the margin of `depth`. -/
def indentedAt (depth : Nat) : Inspection → String
  | .atom text => text
  | .record name fields =>
    name ++ " \x7b\n" ++ indentedFields (depth + 1) fields ++ margin depth ++ "\x7d"
  | .tuple name items => name ++ "(\n" ++ indentedItems (depth + 1) items ++ margin depth ++ ")"
  | .list [] => "[]"
  | .list (item :: rest) =>
    "[\n" ++ margin (depth + 1) ++ item.indentedAt (depth + 1) ++ ",\n" ++
      indentedItems (depth + 1) rest ++ margin depth ++ "]"

def indentedItems (depth : Nat) : List Inspection → String
  | [] => ""
  | item :: rest =>
    margin depth ++ item.indentedAt depth ++ ",\n" ++ indentedItems depth rest

def indentedFields (depth : Nat) : List (String × Inspection) → String
  | [] => ""
  | (name, item) :: rest =>
    margin depth ++ name ++ ": " ++ item.indentedAt depth ++ ",\n" ++ indentedFields depth rest

end

def indented (tree : Inspection) : String := tree.indentedAt 0

end Inspection

end SymbolicBytecode

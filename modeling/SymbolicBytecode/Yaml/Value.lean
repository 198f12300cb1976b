import SymbolicBytecode.Yaml.Document

/-!
# Values of YAML nodes

What a node stands for when a value of some type is asked for. Only a plain scalar stands for
anything else than its text, or a literal block with the tag of the type that is asked for.
-/

namespace SymbolicBytecode.Yaml

def isNullWord (text : String) : Bool := text ∈ ["~", "null", "Null", "NULL"]

/-- The name in a tag that is not one of the format's own. -/
def Tag.name? : Tag → Option String
  | 0x21 :: name => String.fromUTF8? ⟨name.toArray⟩
  | _ => none

namespace Node

def text? : Node → Option String
  | scalar _ s => some s.text
  | _ => none

/-- The text of a scalar that may stand for a value of a type. -/
def typed? (type : String) : Node → Option String
  | scalar tag s =>
    if s.style = .plain ∨ s.style = .literal ∧ tag = some (.known type) then some s.text else none
  | _ => none

/-- Whether a node stands for nothing; `none` if only its tag says so. -/
def isNull? : Node → Option Bool
  | scalar tag s =>
    if s.style ≠ .plain then some false
    else
      match tag with
      | none => some (s.text = "" || isNullWord s.text)
      | some type =>
        if type ≠ .known "null" then some false
        else if isNullWord s.text then some true
        else none
  | _ => some false

def bool? (node : Node) : Option Bool := do
  let text ← node.typed? "bool"
  if text ∈ ["true", "True", "TRUE"] then some true
  else if text ∈ ["false", "False", "FALSE"] then some false
  else none

/-- A natural number is written in decimal without leading zeros, or with its base in front. It may
have a plus sign. -/
def nat? (node : Node) : Option Nat := do
  let letters := (← node.typed? "int").toList
  match if letters.head? = some '+' then letters.drop 1 else letters with
  | '0' :: 'x' :: digits => Text.numeral? 16 digits
  | '0' :: 'o' :: digits => Text.numeral? 8 digits
  | '0' :: 'b' :: digits => Text.numeral? 2 digits
  | '0' :: _ :: _ => none
  | digits => Text.numeral? 10 digits

/-- One of several named alternatives: the name is that of the tag if it has one, and then there is
nothing else. -/
def choice? : Node → Option String
  | scalar tag s =>
    match tag.bind Tag.name? with
    | some name => if s.text = "" ∨ s.style = .plain ∧ isNullWord s.text then some name else none
    | none => some s.text
  | _ => none

/-- The empty plain scalar stands for an empty list. -/
def items? : Node → Option (List Node)
  | list items => some items
  | scalar _ s => if s.style = .plain ∧ s.text = "" then some [] else none
  | _ => none

/-- The empty plain scalar stands for an empty mapping. -/
def entries? : Node → Option (List (Node × Node))
  | map entries => some entries
  | scalar _ s => if s.style = .plain ∧ s.text = "" then some [] else none
  | _ => none

end Node

end SymbolicBytecode.Yaml

import SymbolicBytecode.Yaml.Scalar

/-!
# Tokens of a YAML text

The scalars and marks that a text is made of, and how the words of anchors, tags and directives are
read. The layout of a text, which stands for the opening and closing of block collections and for
the keys of mappings, is spelled out by tokens of its own.
-/

namespace SymbolicBytecode.Yaml

/-- The name of a type, as the bytes of its UTF-8 form. It need not be valid UTF-8. -/
abbrev Tag := List UInt8

inductive Token where
  | version (major minor : Nat)
  /-- In tags, the handle stands for the text. -/
  | shorthand (handle : String) (text : Tag)
  | documentStart
  | documentEnd
  | openBlockList
  | openBlockMap
  | closeBlock
  | openList
  | closeList
  | openMap
  | closeMap
  | dash
  | comma
  | key
  | value
  | anchor (name : String)
  | mention (name : String)
  | tag (handle : String) (suffix : Tag)
  | scalar (s : Scalar)
  deriving DecidableEq, Repr

def Tag.ofString (text : String) : Tag := text.toUTF8.toList

/-- The name of an anchor or alias. -/
def anchorName? (s : Input) : Option (String × Input) :=
  let name := Input.takeWhile isWordLetter s
  let rest := Input.dropWhile isWordLetter s
  let ends := Input.pauses rest ||
    Input.begins (· ∈ ['?', ':', ',', ']', '\x7d', '%', '@', '\x60']) rest
  if name ≠ [] ∧ ends then some (Input.text name, rest) else none

/-- Letters of a tag. In angle brackets there may be marks of collections. -/
def isTagLetter (verbatim : Bool) (c : Char) : Bool :=
  isWordLetter c || c ∈ [';', '/', '?', ':', '@', '&', '=', '+', '$', '.', '!', '~', '*', '\'', '(',
    ')'] || verbatim && c ∈ [',', '[', ']']

/-- How many bytes follow the first byte of a character. -/
def following? (byte : Nat) : Option Nat :=
  if byte < 0x80 then some 0
  else if byte < 0xc0 then none
  else if byte < 0xe0 then some 1
  else if byte < 0xf0 then some 2
  else if byte < 0xf8 then some 3
  else none

/-- The letters of a tag, where a percent sign and two digits stand for a byte. Of the character
that has been begun, `due` bytes are still to come. -/
def tagText? (verbatim : Bool) (due : Nat) : Input → Option (Tag × Input)
  | [] => if due = 0 then some ([], []) else none
  | p :: rest =>
    if p.char = '%' then
      match rest with
      | q :: r :: more => do
        let byte ← Text.numeral? 16 [q.char, r.char]
        let due ←
          if due = 0 then following? byte
          else if 0x80 ≤ byte ∧ byte < 0xc0 then some (due - 1)
          else none
        let (text, more) ← tagText? verbatim due more
        return (byte.toUInt8 :: text, more)
      | _ => none
    else if due ≠ 0 then none
    else if isTagLetter verbatim p.char then do
      let (text, rest) ← tagText? verbatim 0 rest
      return (p.char.toNat.toUInt8 :: text, rest)
    else some ([], p :: rest)

/-- The letters of a tag, of which there has to be one. -/
def someTagText? (verbatim : Bool) (s : Input) : Option (Tag × Input) := do
  let (text, rest) ← tagText? verbatim 0 s
  if text = [] then none else return (text, rest)

/-- The handle of a tag, without its first exclamation mark, up to the second one. -/
def handle? (s : Input) : Option (String × Input) :=
  match Input.dropWhile isWordLetter s with
  | [] => none
  | p :: rest =>
    if p.char = '!' then some ("!" ++ Input.text (Input.takeWhile isWordLetter s) ++ "!", rest)
    else none

/-- The words of a tag: in angle brackets, after a handle, or on their own. -/
def tagWords? (s : Input) : Option (Token × Input) :=
  if Input.begins (· = '<') s then do
    let (text, rest) ← someTagText? true (s.drop 1)
    if Input.begins (· = '>') rest then return (.tag "" text, rest.drop 1) else none
  else
    match handle? s with
    | some (handle, rest) => do
      let (text, rest) ← someTagText? false rest
      return (.tag handle text, rest)
    | none => do
      let (text, rest) ← tagText? false 0 s
      return (if text = [] then .tag "" (.ofString "!") else .tag "!" text, rest)

/-- A tag, read from the character after its exclamation mark. -/
def tag? (inFlow : Bool) (s : Input) : Option (Token × Input) := do
  let (token, rest) ← tagWords? s
  if Input.pauses rest ∨ inFlow ∧ Input.begins (· = ',') rest then return (token, rest) else none

/-- A number of at most nine digits. -/
def versionNumber? (s : Input) : Option (Nat × Input) := do
  let digits := Input.takeWhile Char.isDigit s
  if digits.length > 9 then none
  else return (← Text.numeral? 10 (digits.map Placed.char), Input.dropWhile Char.isDigit s)

/-- The version of the format. -/
def version? (s : Input) : Option (Token × Input) := do
  let (major, s) ← versionNumber? s
  if !Input.begins (· = '.') s then none
  else
    let (minor, s) ← versionNumber? (s.drop 1)
    return (.version major minor, s)

def shorthand? (s : Input) : Option (Token × Input) := do
  if !Input.begins (· = '!') s then none
  else
    let (handle, s) := (handle? (s.drop 1)).getD ("!", s.drop 1)
    if !Input.begins isBlank s then none
    else
      let (text, s) ← someTagText? true (Input.dropWhile isBlank s)
      if Input.pauses s then return (.shorthand handle text, s) else none

/-- A directive, read from the character after its percent sign. It takes up a line. -/
def directive? (s : Input) : Option (Token × Input) := do
  let name := Input.text (Input.takeWhile isWordLetter s)
  let rest := Input.dropWhile isWordLetter s
  if !Input.pauses rest then none
  else
    let rest := Input.dropWhile isBlank rest
    let (token, rest) ←
      if name = "YAML" then version? rest
      else if name = "TAG" then shorthand? rest
      else none
    return (token, ← Input.nextLine? rest)

end SymbolicBytecode.Yaml

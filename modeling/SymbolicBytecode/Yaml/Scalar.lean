import SymbolicBytecode.Text.Numeral
import SymbolicBytecode.Yaml.Character

/-!
# Scalars of a YAML text

A scalar is a piece of text, written plain, in quotes, or as a block of lines. Plain and quoted
scalars may go over several lines: the blanks around the end of a line are dropped, a single line
end becomes a space, and of several the first is dropped.
-/

namespace SymbolicBytecode.Yaml

inductive Style where
  | plain
  | quoted
  | literal
  | folded
  deriving DecidableEq, Repr

structure Scalar where
  text : String
  style : Style
  deriving DecidableEq, Repr

/-- White space inside a scalar. -/
inductive Gap where
  | blanks (cs : List Char)
  | lines (first : Char) (others : List Char)
  /-- After a line end that is escaped, so that it does not count. -/
  | spliced (others : List Char)
  deriving DecidableEq, Repr

namespace Gap

def none : Gap := blanks []

def add (g : Gap) (c : Char) : Gap :=
  match g with
  | blanks cs => if isBreak c then lines c [] else blanks (cs ++ [c])
  | lines first others => if isBreak c then lines first (others ++ [c]) else g
  | spliced others => if isBreak c then spliced (others ++ [c]) else g

def endsLine : Gap → Bool
  | lines .. => true
  | _ => false

/-- What a gap counts for. A line or paragraph separator is kept. -/
def text : Gap → List Char
  | blanks cs => cs
  | lines first others =>
    if first ≠ '\n' then first :: others else if others = [] then [' '] else others
  | spliced others => others

end Gap

/-- A scalar that has been read in part: its letters, last first, and the gap after them. -/
structure Draft where
  letters : List Char
  gap : Gap
  deriving DecidableEq, Repr

namespace Draft

def start : Draft := ⟨[], .none⟩

/-- The letters along with the gap after them, last first. -/
def closed (d : Draft) : List Char := d.gap.text.reverse ++ d.letters

def letter (d : Draft) (c : Char) : Draft := ⟨c :: d.closed, .none⟩

def space (d : Draft) (c : Char) : Draft := { d with gap := d.gap.add c }

def splice (d : Draft) : Draft := ⟨d.closed, .spliced []⟩

/-- A gap at the end of a plain scalar is not part of it. -/
def plain (d : Draft) : Scalar := ⟨String.ofList d.letters.reverse, .plain⟩

def quoted (d : Draft) : Scalar := ⟨String.ofList d.closed.reverse, .quoted⟩

end Draft

/-- Read on in a plain scalar. It ends at a comment, at a mark that may not stand in it and, outside
of brackets, at a line that is not indented as far as `indent`. -/
def plain? (inFlow : Bool) (indent : Nat) (d : Draft) : Input → Option (Draft × Input)
  | [] => some (d, [])
  | p :: rest =>
    if isSpace p.char then
      if p.char = '\t' ∧ d.gap.endsLine ∧ p.column < indent then none
      else plain? inFlow indent (d.space p.char) rest
    else if d.gap ≠ .none ∧
        (!inFlow ∧ p.column < indent ∨ Input.atDocumentMark (p :: rest) ∨ p.char = '#') then
      some (d, p :: rest)
    else if inFlow ∧ p.char = ':' ∧ Input.begins (fun c => isFlowMark c || c = '?') rest then none
    else if p.char = ':' ∧ Input.pauses rest ∨ inFlow ∧ isFlowMark p.char then some (d, p :: rest)
    else plain? inFlow indent (d.letter p.char) rest

/-- Read on in a scalar in single quotes, where two quotes stand for one. -/
def single? (d : Draft) : Input → Option (Draft × Input)
  | [] => none
  | p :: rest =>
    if Input.atDocumentMark (p :: rest) then none
    else if isSpace p.char then single? (d.space p.char) rest
    else if p.char ≠ '\'' then single? (d.letter p.char) rest
    else
      match rest with
      | [] => some (d, [])
      | q :: more => if q.char = '\'' then single? (d.letter '\'') more else some (d, q :: more)

def escaped? (c : Char) : Option Char :=
  [('0', '\x00'), ('a', '\x07'), ('b', '\x08'), ('t', '\t'), ('\t', '\t'), ('n', '\n'),
    ('v', '\x0b'), ('f', '\x0c'), ('r', '\r'), ('e', '\x1b'), (' ', ' '), ('"', '"'), ('/', '/'),
    ('\\', '\\'), ('N', '\u0085'), ('_', '\u00a0'), ('L', '\u2028'), ('P', '\u2029')].lookup c

/-- The number of digits of a character given by its number. -/
def escapedDigits? (c : Char) : Option Nat := [('x', 2), ('u', 4), ('U', 8)].lookup c

def charOfNat? (n : Nat) : Option Char :=
  if h : n.isValidChar then some (Char.ofNatAux n h) else none

/-- The character with the number that the next hexadecimal digits give. -/
def charOfDigits? (count : Nat) (s : Input) : Option Char := do
  let digits := (s.take count).map Placed.char
  if digits.length < count then none else charOfNat? (← Text.numeral? 16 digits)

/-- Read on in a scalar in double quotes, where a backslash begins an escape. -/
def double? (d : Draft) (s : Input) : Option (Draft × Input) :=
  match s with
  | [] => none
  | p :: rest =>
    if Input.atDocumentMark (p :: rest) then none
    else if isSpace p.char then double? (d.space p.char) rest
    else if p.char = '"' then some (d, rest)
    else if p.char ≠ '\\' then double? (d.letter p.char) rest
    else
      match rest with
      | [] => none
      | q :: more =>
        if isBreak q.char then double? d.splice more
        else
          match escaped? q.char, escapedDigits? q.char with
          | some c, _ => double? (d.letter c) more
          | none, some count =>
            match charOfDigits? count more with
            | some c => double? (d.letter c) (more.drop count)
            | none => none
          | none, none => none
termination_by s.length
decreasing_by all_goals simp only [List.length_cons, List.length_drop]; omega

/-- What becomes of the line ends after the last line of a block. -/
inductive Chomping where
  | strip
  | clip
  | keep
  deriving DecidableEq, Repr

def chomping? (c : Char) : Option Chomping := [('-', Chomping.strip), ('+', Chomping.keep)].lookup c

/-- A digit from one on says by how much a block is indented; zero stands for no such digit. -/
def increment? (s : Input) : Option (Nat × Input) :=
  match s with
  | [] => some (0, [])
  | p :: rest =>
    if p.char = '0' then none
    else if p.char.isDigit then some (p.char.toNat - '0'.toNat, rest)
    else some (0, s)

/-- The indicators of a block, in either order. -/
def indicators? (s : Input) : Option (Chomping × Nat × Input) :=
  match s.head?.bind fun p => chomping? p.char with
  | some chomping => do
    let (increment, s) ← increment? (s.drop 1)
    return (chomping, increment, s)
  | none => do
    let (increment, s) ← increment? s
    match s.head?.bind fun p => chomping? p.char with
    | some chomping => return (chomping, increment, s.drop 1)
    | none => return (.clip, increment, s)

/-- Skip the empty lines in a block, keeping their ends in `found`, last first, and the greatest
column in `deepest`. As long as the indentation of the block is not known, `indent` is zero. -/
def emptyLines? (indent : Nat) (found : List Char) (deepest : Nat) :
    Input → Option (List Char × Nat × Input)
  | [] => some (found, deepest, [])
  | p :: rest =>
    if isBreak p.char then emptyLines? indent (p.char :: found) (max deepest p.column) rest
    else if p.char = ' ' ∧ (indent = 0 ∨ p.column < indent) then
      emptyLines? indent found (max deepest p.column) rest
    else if p.char = '\t' ∧ (indent = 0 ∨ p.column < indent) then none
    else some (found, max deepest p.column, p :: rest)

/-- A block that has been read in part, with all characters last first. -/
structure BlockDraft where
  letters : List Char
  /-- The end of the last line. -/
  lineEnd : Option Char
  /-- The ends of the empty lines after it. -/
  emptyLines : List Char
  /-- Whether the last line begins with a blank. -/
  indented : Bool
  deriving DecidableEq, Repr

namespace BlockDraft

/-- Add a line. In a folded block, the end of the line before becomes a space, or nothing if empty
lines follow it, unless one of the two lines begins with a blank. -/
def addLine (d : BlockDraft) (literal : Bool) (line : List Char) : BlockDraft :=
  let indented := line.head?.any isBlank
  let joint :=
    if !literal ∧ d.lineEnd = some '\n' ∧ !d.indented ∧ !indented then
      if d.emptyLines = [] then [' '] else []
    else d.lineEnd.toList
  ⟨line.reverse ++ d.emptyLines ++ joint ++ d.letters, none, [], indented⟩

def text (d : BlockDraft) (chomping : Chomping) : String :=
  String.ofList <| List.reverse <|
    match chomping with
    | .strip => d.letters
    | .clip => d.lineEnd.toList ++ d.letters
    | .keep => d.emptyLines ++ d.lineEnd.toList ++ d.letters

end BlockDraft

/-- Read on in a block at the start of a line. -/
def blockLines? (literal : Bool) (indent : Nat) (d : BlockDraft) (s : Input) :
    Option (BlockDraft × Input) :=
  match s with
  | [] => some (d, [])
  | p :: more =>
    if p.column ≠ indent then some (d, p :: more)
    else
      let line := (Input.takeWhile (!isBreak ·) (p :: more)).map Placed.char
      match Input.dropWhile (!isBreak ·) (p :: more) with
      | [] => some (d.addLine literal line, [])
      | q :: rest =>
        match emptyLines? indent [] 0 rest with
        | none => none
        | some (found, _, rest) =>
          if _h : rest.length < (p :: more).length then
            let d := { d.addLine literal line with lineEnd := some q.char, emptyLines := found }
            blockLines? literal indent d rest
          else none
termination_by s.length
decreasing_by exact _h

/-- A block, read from its indicators on, inside of collections at column `outer`. -/
def block? (literal : Bool) (outer : Option Nat) (s : Input) : Option (Scalar × Input) := do
  let (chomping, increment, s) ← indicators? s
  let s ← Input.nextLine? s
  let given := if increment = 0 then 0 else outer.getD 0 + increment
  let (found, deepest, s) ← emptyLines? given [] 0 s
  let indent := if given = 0 then max deepest (outer.elim 1 (· + 1)) else given
  let (d, s) ← blockLines? literal indent ⟨[], none, found, false⟩ s
  return (⟨d.text chomping, if literal then .literal else .folded⟩, s)

end SymbolicBytecode.Yaml

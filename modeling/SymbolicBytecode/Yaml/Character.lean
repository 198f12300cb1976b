/-!
# Characters of a YAML text

A YAML text as a list of characters that know their place. Carriage returns, line feeds, the pair of
them and the next-line control all end a line in the same way; the line and paragraph separators end
one too, but keep their own sign.
-/

namespace SymbolicBytecode.Yaml

/-- A character with its place; lines and columns count from zero. -/
structure Placed where
  char : Char
  line : Nat
  column : Nat
  deriving DecidableEq, Repr

abbrev Input := List Placed

def isBreak (c : Char) : Bool := c = '\n' || c = '\u2028' || c = '\u2029'

def isBlank (c : Char) : Bool := c = ' ' || c = '\t'

def isSpace (c : Char) : Bool := isBlank c || isBreak c

/-- The marks of collections in brackets. -/
def isFlowMark (c : Char) : Bool := c ∈ [',', '[', ']', '\x7b', '\x7d']

/-- Letters of the names of anchors, tags and directives. -/
def isWordLetter (c : Char) : Bool := c.isAlphanum || c = '_' || c = '-'

/-- A character that may stand in a text. -/
def isReadable (c : Char) : Bool :=
  c ∈ ['\t', '\n', '\r', '\u0085'] || ' ' ≤ c && c ≤ '~' ||
    '\u00a0' ≤ c && c ∉ ['\ufffe', '\uffff']

/-- The characters of a text with one sign for the end of a line. -/
def unifyBreaks : List Char → List Char
  | [] => []
  | '\r' :: '\n' :: rest => '\n' :: unifyBreaks rest
  | c :: rest => (if c = '\r' ∨ c = '\u0085' then '\n' else c) :: unifyBreaks rest

def place (line column : Nat) : List Char → Input
  | [] => []
  | c :: rest =>
    ⟨c, line, column⟩ ::
      if isBreak c then place (line + 1) 0 rest else place line (column + 1) rest

/-- The characters of a text, `none` if some of them may not stand in one. -/
def characters? (text : String) : Option Input :=
  if text.toList.all isReadable then some (place 0 0 (unifyBreaks text.toList)) else none

namespace Input

def text (s : Input) : String := String.ofList (s.map Placed.char)

/-- Whether there is a next character, and it is of some kind. -/
def begins (kind : Char → Bool) (s : Input) : Bool := s.head?.any fun p => kind p.char

/-- Whether white space or the end of the text comes next. -/
def pauses (s : Input) : Bool := s.head?.all fun p => isSpace p.char

def takeWhile (kind : Char → Bool) (s : Input) : Input := List.takeWhile (fun p => kind p.char) s

def dropWhile (kind : Char → Bool) (s : Input) : Input := List.dropWhile (fun p => kind p.char) s

/-- Whether three times the same character stands alone at the start of a line. -/
def isDocumentMark (c : Char) : Input → Bool
  | p :: q :: r :: rest =>
    p.column = 0 && p.char = c && q.char = c && r.char = c && Input.pauses rest
  | _ => false

/-- Whether a document starts or ends here. -/
def atDocumentMark (s : Input) : Bool := isDocumentMark '-' s || isDocumentMark '.' s

/-- The next line, where this one has nothing left but blanks and a comment. -/
def nextLine? (s : Input) : Option Input :=
  let s := Input.dropWhile isBlank s
  match if begins (· = '#') s then Input.dropWhile (!isBreak ·) s else s with
  | [] => some []
  | p :: rest => if isBreak p.char then some rest else none

end Input

end SymbolicBytecode.Yaml

import SymbolicBytecode.Yaml.Token

/-!
# The layout of a YAML text

Outside of brackets, the column of an entry says which block collection it belongs to. An entry that
is further to the right than the collection around it opens a new one, and the next entry further to
the left closes it. That a scalar is a key shows only at the colon after it: until then it is a
candidate, and its place among the tokens is kept.
-/

namespace SymbolicBytecode.Yaml

/-- What a colon may turn into a key. -/
structure Candidate where
  /-- The number of tokens before it. -/
  position : Nat
  line : Nat
  column : Nat
  /-- Nothing but a key can stand there. -/
  required : Bool
  deriving DecidableEq, Repr

/-- The longest distance from the start of a key to its colon. -/
def longestKey : Nat := 1024

/-- A key is on one line with its colon and not too long. `none` if a required key is not. -/
def Candidate.upTo? (p : Placed) : Option Candidate → Option (Option Candidate)
  | none => some none
  | some k =>
    if k.line = p.line ∧ p.column ≤ k.column + longestKey then some (some k)
    else if k.required then none
    else some none

structure Layout where
  /-- The tokens so far, latest first. -/
  tokens : List Token
  /-- How many tokens there are. -/
  count : Nat
  /-- The columns of the open block collections, innermost first. -/
  columns : List Nat
  candidate : Option Candidate
  /-- The candidates outside of the open brackets, innermost first. -/
  outer : List (Option Candidate)
  /-- Whether a key may begin here. -/
  keyAllowed : Bool

namespace Layout

def start : Layout := ⟨[], 0, [], none, [], true⟩

def inFlow (l : Layout) : Bool := !l.outer.isEmpty

def emit (l : Layout) (t : Token) : Layout :=
  { l with tokens := t :: l.tokens, count := l.count + 1 }

/-- The least column at which a scalar may go on. -/
def leastColumn (l : Layout) : Nat := l.columns.head?.elim 0 (· + 1)

/-- Drop the candidates that have no colon in time. -/
def expire? (l : Layout) (p : Placed) : Option Layout := do
  let candidate ← Candidate.upTo? p l.candidate
  let outer ← l.outer.mapM (Candidate.upTo? p)
  return { l with candidate, outer }

/-- Give up the candidate, since something else than a colon follows. -/
def forget? (l : Layout) : Option Layout :=
  if l.candidate.any Candidate.required then none else some { l with candidate := none }

/-- What comes next is a candidate. It has to be a key if it stands where the entries of a block
collection begin. -/
def consider? (l : Layout) (p : Placed) : Option Layout := do
  if l.keyAllowed then
    let l ← l.forget?
    let required := !l.inFlow && l.columns.head? = some p.column
    return { l with candidate := some ⟨l.count, p.line, p.column, required⟩ }
  else return l

/-- Whether an entry at some column opens a block collection. -/
def opens (l : Layout) (column : Nat) : Bool := !l.inFlow && l.columns.head?.all (· < column)

def openBlock (l : Layout) (t : Token) (column : Nat) : Layout :=
  if l.opens column then { l.emit t with columns := column :: l.columns } else l

/-- Close the block collections with a column of some kind, from the innermost on. -/
def closeWhile (l : Layout) (deeper : Nat → Bool) : Layout :=
  if l.inFlow then l
  else
    let closed := (l.columns.takeWhile deeper).foldl (fun l _ => l.emit .closeBlock) l
    { closed with columns := l.columns.dropWhile deeper }

/-- Put tokens in front of a candidate. -/
def insert (l : Layout) (k : Candidate) (new : List Token) : Layout :=
  let since := l.count - k.position
  { l with
    tokens := l.tokens.take since ++ new.reverse ++ l.tokens.drop since
    count := l.count + new.length }

/-- A mark that concerns the text as a whole. -/
def outermost? (l : Layout) (t : Token) : Option Layout := do
  let l ← (l.closeWhile fun _ => true).forget?
  return { l.emit t with keyAllowed := false }

def openBracket? (l : Layout) (p : Placed) (t : Token) : Option Layout := do
  let l ← l.consider? p
  return { l.emit t with candidate := none, outer := l.candidate :: l.outer, keyAllowed := true }

def closeBracket? (l : Layout) (t : Token) : Option Layout := do
  let l ← l.forget?
  let l := { l.emit t with keyAllowed := false }
  match l.outer with
  | [] => return l
  | candidate :: outer => return { l with candidate, outer }

def comma? (l : Layout) : Option Layout := do
  let l ← l.forget?
  return { l.emit .comma with keyAllowed := true }

/-- Outside of brackets, a dash and an explicit key stand where a key might begin. -/
def blockMark? (l : Layout) (p : Placed) (opening t : Token) : Option Layout :=
  if !l.inFlow ∧ !l.keyAllowed then none
  else do
    let l ← (l.openBlock opening p.column).forget?
    return l.emit t

def dash? (l : Layout) (p : Placed) : Option Layout := do
  let l ← l.blockMark? p .openBlockList .dash
  return { l with keyAllowed := true }

def key? (l : Layout) (p : Placed) : Option Layout := do
  let l ← l.blockMark? p .openBlockMap .key
  return { l with keyAllowed := !l.inFlow }

/-- A colon, after a candidate or on its own. -/
def value? (l : Layout) (p : Placed) : Option Layout :=
  match l.candidate with
  | some k =>
    let opening := l.opens k.column
    let l := l.insert k (if opening then [.openBlockMap, .key] else [.key])
    some
      { l.emit .value with
        columns := if opening then k.column :: l.columns else l.columns
        candidate := none
        keyAllowed := false }
  | none => do
    let l ← l.blockMark? p .openBlockMap .value
    return { l with keyAllowed := !l.inFlow }

/-- A word that may be part of a key. -/
def word? (l : Layout) (p : Placed) (t : Token) (keyAllowed : Bool) : Option Layout := do
  let l ← l.consider? p
  return { l.emit t with keyAllowed }

/-- The token that begins with `p`, and the text after it. -/
def next? (l : Layout) (p : Placed) (rest : Input) : Option (Layout × Input) :=
  let alone := l.inFlow || Input.pauses rest
  if p.column = 0 ∧ p.char = '%' then do
    let (t, rest) ← directive? rest
    return (← l.outermost? t, rest)
  else if Input.isDocumentMark '-' (p :: rest) then do
    return (← l.outermost? .documentStart, rest.drop 2)
  else if Input.isDocumentMark '.' (p :: rest) then do
    return (← l.outermost? .documentEnd, rest.drop 2)
  else if p.char = '[' then do return (← l.openBracket? p .openList, rest)
  else if p.char = '\x7b' then do return (← l.openBracket? p .openMap, rest)
  else if p.char = ']' then do return (← l.closeBracket? .closeList, rest)
  else if p.char = '\x7d' then do return (← l.closeBracket? .closeMap, rest)
  else if p.char = ',' then do return (← l.comma?, rest)
  else if p.char = '-' ∧ Input.pauses rest then do return (← l.dash? p, rest)
  else if p.char = '?' ∧ alone then do return (← l.key? p, rest)
  else if p.char = ':' ∧ alone then do return (← l.value? p, rest)
  else if p.char = '*' then do
    let (name, rest) ← anchorName? rest
    return (← l.word? p (.mention name) false, rest)
  else if p.char = '&' then do
    let (name, rest) ← anchorName? rest
    return (← l.word? p (.anchor name) false, rest)
  else if p.char = '!' then do
    let (t, rest) ← tag? l.inFlow rest
    return (← l.word? p t false, rest)
  else if !l.inFlow ∧ (p.char = '|' ∨ p.char = '>') then do
    let l ← l.forget?
    let (s, rest) ← block? (p.char = '|') l.columns.head? rest
    return ({ l.emit (.scalar s) with keyAllowed := true }, rest)
  else if p.char = '\'' then do
    let (d, rest) ← single? .start rest
    return (← l.word? p (.scalar d.quoted) false, rest)
  else if p.char = '"' then do
    let (d, rest) ← double? .start rest
    return (← l.word? p (.scalar d.quoted) false, rest)
  else if isSpace p.char ∨ p.char ∈ ['|', '>', '%', '@', '\x60'] then none
  else do
    let (d, rest) ← plain? l.inFlow l.leastColumn .start (p :: rest)
    return (← l.word? p (.scalar d.plain) d.gap.endsLine, rest)

/-- Skip white space and comments. Outside of brackets a key may begin on a new line, and a tab may
not stand where a key may begin. A byte order mark at the start of a line takes up a column and says
nothing. -/
def skip (inFlow keyAllowed inComment : Bool) : Input → Bool × Input
  | [] => (keyAllowed, [])
  | p :: rest =>
    if isBreak p.char then skip inFlow (keyAllowed || !inFlow) false rest
    else if inComment ∨ p.char = ' ' ∨ p.char = '\t' ∧ (inFlow ∨ !keyAllowed) ∨
        p.char = '\ufeff' ∧ p.column = 0 then
      skip inFlow keyAllowed inComment rest
    else if p.char = '#' then skip inFlow keyAllowed true rest
    else (keyAllowed, p :: rest)

/-- The tokens of a text, after those that have been found already. -/
def tokens? (l : Layout) : Nat → Input → Option (List Token)
  | 0, _ => none
  | fuel + 1, s =>
    match skip l.inFlow l.keyAllowed false s with
    | (_, []) => do
      let l ← (l.closeWhile fun _ => true).forget?
      return l.tokens.reverse
    | (keyAllowed, p :: rest) => do
      let l ← ({ l with keyAllowed } : Layout).expire? p
      let (l, rest) ← (l.closeWhile (p.column < ·)).next? p rest
      l.tokens? fuel rest

end Layout

/-- The tokens of a text, `none` if it is not well-formed. Every token takes up a character. -/
def tokens? (text : String) : Option (List Token) := do
  let s ← characters? text
  Layout.start.tokens? (s.length + 1) s

end SymbolicBytecode.Yaml

import SymbolicBytecode.Yaml.Layout

/-!
# Nodes of a YAML text

What the tokens of a document say: scalars, lists and mappings. A node can be given a name, so that
aliases can mention it. The name stands for a number, which is that of the names in use when the
node begins; a name that is given again stands for its new number from then on. A mention means the
node that got its number last, be it before or after the mention. Where a list or mapping has room
for a node but none is written, it is the empty plain scalar.
-/

namespace SymbolicBytecode.Yaml

inductive Node where
  | scalar (tag : Option Tag) (s : Scalar)
  | list (items : List Node)
  | map (entries : List (Node × Node))
  | mention (number : Nat)
  deriving Repr

def Node.empty : Node := .scalar none ⟨"", .plain⟩

/-- The tokens to be read, the numbers of the names in use, and the nodes with a number so far. -/
structure Reading where
  tokens : List Token
  numbers : List (String × Nat)
  nodes : List (Nat × Node)

/-- What is written in front of a node. -/
structure Properties where
  anchor : Option String
  tag : Option Tag

/-- The meaning of the handles of tags. -/
abbrev Handles := List (String × Tag)

def takeAnchor : List Token → Option String × List Token
  | .anchor name :: rest => (some name, rest)
  | tokens => (none, tokens)

/-- A tag, `none` if its handle has no meaning. -/
def takeTag? (handles : Handles) : List Token → Option (Option Tag × List Token)
  | .tag handle suffix :: rest =>
    if handle = "" then some (some suffix, rest)
    else do return (some ((← handles.lookup handle) ++ suffix), rest)
  | tokens => some (none, tokens)

/-- The anchor and the tag of a node, in either order. -/
def properties? (handles : Handles) (tokens : List Token) : Option (Properties × List Token) := do
  let (before, tokens) := takeAnchor tokens
  let (tag, tokens) ← takeTag? handles tokens
  match before with
  | some name => return (⟨some name, tag⟩, tokens)
  | none =>
    let (anchor, tokens) := takeAnchor tokens
    return (⟨anchor, tag⟩, tokens)

/-- A node with a name gets a number when it begins. -/
def Properties.begin (p : Properties) (tokens : List Token) (s : Reading) : Option Nat × Reading :=
  match p.anchor with
  | none => (none, { s with tokens })
  | some name =>
    let number := s.numbers.length
    (some number,
      { tokens
        numbers := (name, number) :: s.numbers.filter (·.1 ≠ name)
        nodes := s.nodes.filter (·.1 ≠ number) })

/-- Keep a node under its number, unless a node inside of it has got the same one. -/
def finish (number : Option Nat) (node : Node) (s : Reading) : Node × Reading :=
  match number with
  | none => (node, s)
  | some n =>
    if (s.nodes.lookup n).isSome then (node, s)
    else (node, { s with nodes := (n, node) :: s.nodes })

/-- The tokens from the next entry in brackets on. There is a comma before every entry but the
first, and there may be one before the closing bracket. -/
def entry? (close : Token) (first : Bool) : List Token → Option (List Token)
  | [] => none
  | t :: rest =>
    if first ∨ t = close then some (t :: rest) else if t = .comma then some rest else none

mutual

/-- Read a node. A list that is the value of a mapping may be written without indentation. -/
def node? (handles : Handles) (unindented : Bool) : Nat → Reading → Option (Node × Reading)
  | 0, _ => none
  | fuel + 1, s =>
    match s.tokens with
    | .mention name :: rest => do
      return (.mention (← s.numbers.lookup name), { s with tokens := rest })
    | tokens => do
      let (properties, tokens) ← properties? handles tokens
      let (number, s) := properties.begin tokens s
      match tokens with
      | .scalar v :: rest =>
        return finish number (.scalar properties.tag v) { s with tokens := rest }
      | .openList :: rest =>
        let (items, s) ← flowItems? handles true fuel { s with tokens := rest }
        return finish number (.list items) s
      | .openMap :: rest =>
        let (entries, s) ← flowEntries? handles true fuel { s with tokens := rest }
        return finish number (.map entries) s
      | .openBlockList :: rest =>
        let (items, s) ← blockItems? handles fuel { s with tokens := rest }
        return finish number (.list items) s
      | .openBlockMap :: rest =>
        let (entries, s) ← blockEntries? handles fuel { s with tokens := rest }
        return finish number (.map entries) s
      | _ =>
        if unindented ∧ tokens.head? = some .dash then
          let (items, s) ← unindentedItems? handles fuel s
          return finish number (.list items) s
        else if properties.anchor.isSome ∨ properties.tag.isSome then
          return finish number (.scalar properties.tag ⟨"", .plain⟩) s
        else none

/-- Read a node, which is empty if one of the `stops` comes next. -/
def nodeUnless? (handles : Handles) (stops : List Token) (unindented : Bool) :
    Nat → Reading → Option (Node × Reading)
  | 0, _ => none
  | fuel + 1, s =>
    if s.tokens.head?.any (· ∈ stops) then some (.empty, s) else node? handles unindented fuel s

def blockItems? (handles : Handles) : Nat → Reading → Option (List Node × Reading)
  | 0, _ => none
  | fuel + 1, s =>
    match s.tokens with
    | .dash :: rest => do
      let (item, s) ← nodeUnless? handles [.dash, .closeBlock] false fuel { s with tokens := rest }
      let (items, s) ← blockItems? handles fuel s
      return (item :: items, s)
    | .closeBlock :: rest => some ([], { s with tokens := rest })
    | _ => none

def unindentedItems? (handles : Handles) : Nat → Reading → Option (List Node × Reading)
  | 0, _ => none
  | fuel + 1, s =>
    match s.tokens with
    | .dash :: rest => do
      let (item, s) ←
        nodeUnless? handles [.dash, .key, .value, .closeBlock] false fuel { s with tokens := rest }
      let (items, s) ← unindentedItems? handles fuel s
      return (item :: items, s)
    | _ => some ([], s)

/-- Read the value of a mapping, which is empty if there is no colon. -/
def value? (handles : Handles) (stops : List Token) (unindented : Bool) :
    Nat → Reading → Option (Node × Reading)
  | 0, _ => none
  | fuel + 1, s =>
    match s.tokens with
    | .value :: rest => nodeUnless? handles stops unindented fuel { s with tokens := rest }
    | _ => some (.empty, s)

def blockEntries? (handles : Handles) : Nat → Reading → Option (List (Node × Node) × Reading)
  | 0, _ => none
  | fuel + 1, s =>
    match s.tokens with
    | .key :: rest => do
      let stops := [.key, .value, .closeBlock]
      let (key, s) ← nodeUnless? handles stops true fuel { s with tokens := rest }
      let (value, s) ← value? handles stops true fuel s
      let (entries, s) ← blockEntries? handles fuel s
      return ((key, value) :: entries, s)
    | .closeBlock :: rest => some ([], { s with tokens := rest })
    | _ => none

/-- A key in a list makes up a mapping with a single entry. -/
def flowItems? (handles : Handles) (first : Bool) : Nat → Reading → Option (List Node × Reading)
  | 0, _ => none
  | fuel + 1, s => do
    match ← entry? .closeList first s.tokens with
    | .closeList :: rest => return ([], { s with tokens := rest })
    | .key :: rest =>
      let (key, s) ←
        nodeUnless? handles [.value, .comma, .closeList] false fuel { s with tokens := rest }
      let (value, s) ← value? handles [.comma, .closeList] false fuel s
      let (items, s) ← flowItems? handles false fuel s
      return (.map [(key, value)] :: items, s)
    | tokens =>
      let (item, s) ← node? handles false fuel { s with tokens }
      let (items, s) ← flowItems? handles false fuel s
      return (item :: items, s)

/-- An entry without a key mark is a key without a value. -/
def flowEntries? (handles : Handles) (first : Bool) :
    Nat → Reading → Option (List (Node × Node) × Reading)
  | 0, _ => none
  | fuel + 1, s => do
    match ← entry? .closeMap first s.tokens with
    | .closeMap :: rest => return ([], { s with tokens := rest })
    | .key :: rest =>
      let (key, s) ←
        nodeUnless? handles [.value, .comma, .closeMap] false fuel { s with tokens := rest }
      let (value, s) ← value? handles [.comma, .closeMap] false fuel s
      let (entries, s) ← flowEntries? handles false fuel s
      return ((key, value) :: entries, s)
    | tokens =>
      let (key, s) ← node? handles false fuel { s with tokens }
      let (entries, s) ← flowEntries? handles false fuel s
      return ((key, .empty) :: entries, s)

end

/-- The node that some tokens begin with, and what is left to be read. Every third call at least
takes up a token, which bounds how deep the calls go. -/
def Node.ofTokens? (handles : Handles) (tokens : List Token) : Option (Node × Reading) :=
  node? handles false (3 * tokens.length + 3) ⟨tokens, [], []⟩

end SymbolicBytecode.Yaml

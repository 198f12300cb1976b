import SymbolicBytecode.Yaml.Node

/-!
# YAML documents

A text holds one document at most. It may begin with directives and a line of dashes, and it may end
with lines of dots. A text without a document counts as an empty one.
-/

namespace SymbolicBytecode.Yaml

structure Document where
  root : Node
  /-- The nodes that can be mentioned. -/
  nodes : List (Nat × Node)
  deriving Repr

namespace Document

def empty : Document := ⟨.empty, []⟩

/-- A node, or the node that it mentions. -/
def follow (d : Document) : Node → Node
  | .mention number => (d.nodes.lookup number).getD (.mention number)
  | node => node

end Document

/-- What the format fixes for the types of values that it knows. -/
def Tag.known (name : String) : Tag := .ofString ("tag:yaml.org,2002:" ++ name)

/-- The handles that need no directive. -/
def standardHandles : Handles := [("!", .ofString "!"), ("!!", .known "")]

/-- The handles that the directives in front of a document add, and the tokens after these. There
is at most one directive for each handle, and one for the version, which has to be 1.1 or 1.2. -/
def directives? (versioned : Bool) (handles : Handles) :
    List Token → Option (Handles × List Token)
  | .version major minor :: rest =>
    if versioned ∨ major ≠ 1 ∨ minor ≠ 1 ∧ minor ≠ 2 then none
    else directives? true handles rest
  | .shorthand handle text :: rest =>
    if (handles.lookup handle).isSome then none
    else directives? versioned ((handle, text) :: handles) rest
  | tokens => some (handles, tokens)

def isDirective : Token → Bool
  | .version .. | .shorthand .. => true
  | _ => false

/-- Whether there is nothing more in a document. -/
def endsDocument (tokens : List Token) : Bool :=
  tokens.head?.all fun t => isDirective t || t = .documentStart || t = .documentEnd

/-- The document that is a single node, and the tokens after it. -/
def Document.ofTokens? (handles : Handles) (tokens : List Token) :
    Option (Document × List Token) := do
  let (root, s) ← Node.ofTokens? handles tokens
  return (⟨root, s.nodes⟩, s.tokens)

/-- The document of some tokens, and the tokens after it. -/
def document? (tokens : List Token) : Option (Document × List Token) :=
  if tokens.head?.any fun t => isDirective t || t = .documentStart then do
    match ← directives? false [] tokens with
    | (handles, .documentStart :: rest) =>
      if endsDocument rest then return (.empty, rest)
      else Document.ofTokens? (handles ++ standardHandles) rest
    | _ => none
  else if tokens = [] then some (.empty, [])
  else Document.ofTokens? standardHandles tokens

/-- The document of a text, `none` if the text is not well-formed or holds several. -/
def parse? (text : String) : Option Document := do
  let (d, rest) ← document? (← tokens? text)
  if rest.all (· = .documentEnd) then return d else none

end SymbolicBytecode.Yaml

import TreeLens.Tree.Node

/-!
# Paths

A path leads from a node to one of its descendants by field and item numbers. Its text
form follows the keys and indices of the data form of the tree, so the same words serve
for paths of a tree and for locations in raw data: a `Location` is a list of keys and
indices, and `Location.text` writes it after `$`, plain keys after a dot and all others
in brackets and quotes.
-/

namespace TreeLens

/-- One step from a node to a child. -/
inductive Step where
  | field (index : Nat)
  | item (index : Nat)
deriving DecidableEq, Repr

/-- A path from a node to a descendant. -/
abbrev Path := List Step

/-- One step in data: to a member of an object or to an item of an array. -/
inductive Place where
  | key (name : String)
  | index (number : Nat)
deriving DecidableEq, Repr

/-- A place in data, seen from its root. -/
abbrev Location := List Place

namespace Place

/-- Characters of keys that are written without quotes. -/
def isPlainChar (c : Char) : Bool :=
  c.isAlphanum || c == '_'

/-- Keys that are written without quotes. -/
def isPlain (key : String) : Bool :=
  !key.isEmpty && key.toList.all isPlainChar

/-- A place as text, with `escape` for the characters of a quoted key. -/
def text (escape : Char → List Char) : Place → String
  | .key name =>
    if isPlain name then "." ++ name
    else "['" ++ String.ofList (name.toList.flatMap escape) ++ "']"
  | .index number => "[" ++ Nat.repr number ++ "]"

/-- Writes a quote with a backslash before it. -/
def escapeQuote (c : Char) : List Char :=
  if c = '\'' then ['\\', c] else [c]

/-- Writes a quote and a backslash with a backslash before it. -/
def escapeBoth (c : Char) : List Char :=
  if c = '\'' ∨ c = '\\' then ['\\', c] else [c]

end Place

/-- A location as text, from the root `$` on. -/
def Location.text (escape : Char → List Char) (location : Location) : String :=
  location.foldl (fun text place => text ++ place.text escape) "$"

namespace Node

def child? : Node → Step → Option Node
  | .object _ fields _, .field i => fields[i]?.map (·.2)
  | .array items, .item i => items[i]?
  | _, _ => none

def resolve? (node : Node) : Path → Option Node
  | [] => some node
  | step :: rest => (node.child? step).bind fun child => child.resolve? rest

/-- The place in the data form that a step leads to. -/
def place? : Node → Step → Option Place
  | .object _ fields _, .field i => fields[i]?.map fun field => .key field.1
  | .array items, .item i => items[i]?.map fun _ => .index i
  | _, _ => none

/-- The location in the data form that a path leads to. -/
def location? (node : Node) : Path → Option Location
  | [] => some []
  | step :: rest =>
    (node.place? step).bind fun place =>
      (node.child? step).bind fun child =>
        (child.location? rest).map (place :: ·)

def jsonPath? (node : Node) (path : Path) : Option String :=
  (node.location? path).map (Location.text Place.escapeBoth)

mutual

/-- All nodes of a tree with their paths, a node before its descendants and fields and
items in order; `here` is the path of the node itself. -/
def outline (here : Path) : Node → List (Path × Node)
  | .leaf value => [(here, .leaf value)]
  | .array items => (here, .array items) :: outlineItems here 0 items
  | .object name fields span => (here, .object name fields span) :: outlineFields here 0 fields

/-- The outline of a list of items, the first of them being item `i`. -/
def outlineItems (here : Path) (i : Nat) : List Node → List (Path × Node)
  | [] => []
  | item :: rest => item.outline (here ++ [.item i]) ++ outlineItems here (i + 1) rest

/-- The outline of a list of fields, the first of them being field `i`. -/
def outlineFields (here : Path) (i : Nat) : List (String × Node) → List (Path × Node)
  | [] => []
  | (_, value) :: rest => value.outline (here ++ [.field i]) ++ outlineFields here (i + 1) rest

end

end Node

end TreeLens

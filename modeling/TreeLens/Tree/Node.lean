import TreeLens.Decimal.Layout
import TreeLens.Decimal.Numeral
import TreeLens.Json.Basic
import TreeLens.Tree.Span

/-!
# Syntax tree nodes

A tree is made of leaves, arrays and objects. An object may have a name and a span of
source bytes; its fields keep their order. `Node.toJson` is the tree as data, with name
and span under reserved keys.
-/

namespace TreeLens

inductive Leaf where
  | null
  | bool (value : Bool)
  | num (value : Double)
  | str (value : String)
deriving DecidableEq, Repr, Inhabited

/-- What a node is, by its shape alone. -/
inductive NodeKind where
  | object
  | array
  | string
  | number
  | boolean
  | null
deriving DecidableEq, Repr

namespace Leaf

def kind : Leaf → NodeKind
  | .null => .null
  | .bool _ => .boolean
  | .num _ => .number
  | .str _ => .string

/-- The leaf as shown text, without quotes or escapes. -/
def text : Leaf → String
  | .null => "null"
  | .bool b => if b then "true" else "false"
  | .num d => d.render .display
  | .str s => s

/-- The leaf as data; a number that is not finite has no data form and becomes null. -/
def toJson : Leaf → Json
  | .null => .null
  | .bool b => .bool b
  | .num d => if d.isFinite then .num (.float d) else .null
  | .str s => .str s

/-- The leaf that a text stands for: the two truth words, a finite decimal numeral, or
the text itself. -/
def ofText (s : String) : Leaf :=
  if s = "true" then .bool true
  else if s = "false" then .bool false
  else
    match Double.read? s with
    | some d => if d.isFinite then .num d else .str s
    | none => .str s

end Leaf

inductive Node where
  | leaf (value : Leaf)
  | array (items : List Node)
  | object (name : Option String) (fields : List (String × Node)) (span : Option Span)
deriving Repr, Inhabited

namespace Node

def null : Node := .leaf .null

def kind : Node → NodeKind
  | .leaf value => value.kind
  | .array _ => .array
  | .object _ _ _ => .object

/-- The name of an object that has one. -/
def name? : Node → Option String
  | .object name _ _ => name
  | _ => none

/-- The span of an object that has one. -/
def span? : Node → Option Span
  | .object _ _ span => span
  | _ => none

/-- The first field of an object under a key. -/
def field? (key : String) : Node → Option Node
  | .object _ fields _ => fields.lookup key
  | _ => none

/-- Objects and arrays with items can be opened and closed. -/
def isExpandable : Node → Bool
  | .leaf _ => false
  | .array items => !items.isEmpty
  | .object _ _ _ => true

mutual

/-- The number of nodes of a tree, its root included. -/
def count : Node → Nat
  | .leaf _ => 1
  | .array items => 1 + countItems items
  | .object _ fields _ => 1 + countFields fields

def countItems : List Node → Nat
  | [] => 0
  | item :: rest => item.count + countItems rest

def countFields : List (String × Node) → Nat
  | [] => 0
  | (_, value) :: rest => value.count + countFields rest

end

/-- The key that a node's name has in its data form. -/
def nameKey : String := "$name"

/-- The key that a node's span has in its data form. -/
def spanKey : String := "$span"

/-- The reserved members of an object's data form. -/
def headMembers (name : Option String) (span : Option Span) : List (String × Json) :=
  (match name with
    | some n => [(nameKey, .str n)]
    | none => []) ++
  (match span with
    | some s => [(spanKey, .arr [.ofNat s.start, .ofNat s.stop])]
    | none => [])

mutual

/-- A tree as data. Fields come after the reserved members; a field with a key that is
already there replaces its value. -/
def toJson : Node → Json
  | .leaf value => value.toJson
  | .array items => .arr (itemsToJson items)
  | .object name fields span => .obj (putFields fields (headMembers name span))

def itemsToJson : List Node → List Json
  | [] => []
  | item :: rest => item.toJson :: itemsToJson rest

/-- Members with the fields of an object put in. -/
def putFields : List (String × Node) → List (String × Json) → List (String × Json)
  | [], members => members
  | (key, value) :: rest, members => putFields rest (Json.put key value.toJson members)

end

end Node

end TreeLens

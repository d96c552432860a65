import TreeLens.Json.Basic

/-!
# Queries

A query selects parts of a JSON value. It is a list of segments; each takes the values
selected so far and selects among their children, or among the children of all their
descendants. Results come in a fixed order: everything that the first selector of a
segment selects comes before everything that its second one selects; for one selector
the values come in the order in which they were selected, a value before what is in it.
-/

namespace TreeLens

/-- What is selected among the children of a value. -/
inductive Selector where
  /-- The member of an object under a key. -/
  | name (key : String)
  | wildcard
  /-- One item of an array; negative numbers count from the end. -/
  | index (number : Int)
  /-- Items of an array from one bound up to another, by steps. -/
  | slice (start stop step : Option Int)
deriving DecidableEq, Repr

structure Segment where
  descends : Bool
  selectors : List Selector
deriving DecidableEq, Repr

abbrev Query := List Segment

namespace Json

/-- The children of a value in order. -/
def children : Json → List Json
  | .arr items => items
  | .obj members => members.map (·.2)
  | _ => []

mutual

/-- A value and all values in it, a value before what is in it. -/
def descendants : Json → List Json
  | .arr items => .arr items :: descendantsOfItems items
  | .obj members => .obj members :: descendantsOfMembers members
  | .null => [.null]
  | .bool b => [.bool b]
  | .num n => [.num n]
  | .str s => [.str s]

def descendantsOfItems : List Json → List Json
  | [] => []
  | item :: rest => item.descendants ++ descendantsOfItems rest

def descendantsOfMembers : List (String × Json) → List Json
  | [] => []
  | (_, value) :: rest => value.descendants ++ descendantsOfMembers rest

end

end Json

namespace Selector

/-- A bound of a slice, counted from the end if it is negative. -/
def fromEnd (length bound : Int) : Int :=
  if bound < 0 then length + bound else bound

def clamp (low high n : Int) : Int :=
  max low (min n high)

/-- The item numbers of a slice of an array, in the order in which they are selected. A
slice by zero steps is empty. -/
def sliceNumbers (length : Nat) (start stop step : Option Int) : List Nat :=
  let length : Int := length
  let step := step.getD 1
  if 0 < step then
    let low := clamp 0 length (fromEnd length (start.getD 0))
    let high := clamp 0 length (fromEnd length (stop.getD length))
    let count := ((high - low + step - 1) / step).toNat
    (List.range count).map fun (k : Nat) => (low + step * (k : Int)).toNat
  else if step < 0 then
    let high := clamp (-1) (length - 1) ((start.map (fromEnd length)).getD (length - 1))
    let low := clamp (-1) (length - 1) ((stop.map (fromEnd length)).getD (-1))
    let count := ((high - low - step - 1) / -step).toNat
    (List.range count).map fun (k : Nat) => (high + step * (k : Int)).toNat
  else []

/-- The selected children of a value. -/
def select : Selector → Json → List Json
  | .name key, .obj members => (members.lookup key).toList
  | .wildcard, value => value.children
  | .index number, .arr items =>
    let i := fromEnd items.length number
    if 0 ≤ i then items[i.toNat]?.toList else []
  | .slice start stop step, .arr items =>
    let array := items.toArray
    (sliceNumbers items.length start stop step).filterMap fun i => array[i]?
  | _, _ => []

end Selector

/-- What a segment selects from a list of values. -/
def Segment.select (segment : Segment) (values : List Json) : List Json :=
  let reached := if segment.descends then values.flatMap Json.descendants else values
  segment.selectors.flatMap fun selector => reached.flatMap selector.select

/-- What a query selects from a value. -/
def Query.select (query : Query) (value : Json) : List Json :=
  query.foldl (fun values segment => segment.select values) [value]

end TreeLens

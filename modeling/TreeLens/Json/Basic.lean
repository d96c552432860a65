import TreeLens.Decimal.Double

/-!
# JSON values

Values keep their members in order, and a number remembers whether it was written as an
integer. A value read from a text may repeat a key; `Json.merged` gives each key its
first place and its last value.
-/

namespace TreeLens

/-- A number is an exact integer or a double. -/
inductive Number where
  | int (value : Int)
  | float (value : Double)
deriving DecidableEq, Repr, Inhabited

/-- The value as a double, rounded if the integer has too many digits. -/
def Number.toDouble : Number → Double
  | .int i => Double.ofInt i
  | .float d => d

/-- The value as a natural number: only non-negative integers have one. -/
def Number.toNat? : Number → Option Nat
  | .int i => if 0 ≤ i then some i.toNat else none
  | .float _ => none

inductive Json where
  | null
  | bool (value : Bool)
  | num (value : Number)
  | str (value : String)
  | arr (items : List Json)
  | obj (members : List (String × Json))
deriving Repr, Inhabited

namespace Json

def ofNat (n : Nat) : Json :=
  .num (.int n)

def toNat? : Json → Option Nat
  | .num n => n.toNat?
  | _ => none

def toStr? : Json → Option String
  | .str s => some s
  | _ => none

/-- The member of an object under a key. -/
def get? (key : String) : Json → Option Json
  | .obj members => members.lookup key
  | _ => none

/-- Whether a value counts as present: null, false, zero and the empty text do not. -/
def isTruthy : Json → Bool
  | .null => false
  | .bool b => b
  | .num n => !n.toDouble.isZero
  | .str s => !s.isEmpty
  | .arr _ => true
  | .obj _ => true

/-! ## Members -/

/-- Sets a member: a key that is there keeps its place and takes the new value, a new
key goes last. -/
def put (key : String) (value : Json) : List (String × Json) → List (String × Json)
  | [] => [(key, value)]
  | (k, v) :: rest => if k = key then (k, value) :: rest else (k, v) :: put key value rest

/-- Members with repeated keys merged by `put`, from the first to the last. -/
def mergeMembers (members : List (String × Json)) : List (String × Json) :=
  members.foldl (fun merged m => put m.1 m.2 merged) []

mutual

/-- A value with the repeated keys of all its objects merged. -/
def merged : Json → Json
  | .arr items => .arr (mergedItems items)
  | .obj members => .obj (mergeMembers (mergedMembers members))
  | .null => .null
  | .bool b => .bool b
  | .num n => .num n
  | .str s => .str s

/-- Items with the objects inside them merged. -/
def mergedItems : List Json → List Json
  | [] => []
  | item :: rest => item.merged :: mergedItems rest

/-- Members with the objects inside them merged, the members themselves not. -/
def mergedMembers : List (String × Json) → List (String × Json)
  | [] => []
  | (key, value) :: rest => (key, value.merged) :: mergedMembers rest

end

end Json

end TreeLens

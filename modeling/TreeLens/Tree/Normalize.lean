import TreeLens.Text.Words
import TreeLens.Tree.Path

/-!
# Normal form of raw trees

A parser's raw output wraps nodes in two ways: a span wrapper is an object with members
`start`, `end` and `data`, and a name wrapper is an object whose only member is an
object. `normalize` takes both off. The rules, in order, for an object at a location:

1. a span wrapper gives its data with the span attached, or null if the data stands for
   nothing;
2. a name wrapper gives the object inside under the wrapper's name, if what is inside is
   an object or null;
3. any other object keeps its members as fields. A member that is a span wrapper around
   an object with a member of the same key is replaced by that inner member, with the
   span attached.

Spans have to be in order and, where the size of the source is known, inside it; the
first one that is not ends the work with an error that says where it stands.
-/

namespace TreeLens

/-- Why a raw tree has no normal form. -/
inductive NormalizeError where
  /-- A number that is no double. Every `Number` is one, since integers have at most 64
  bits and are rounded, so `normalize` never gives this error; a host that keeps numbers
  in another way may report it. -/
  | unknownKind (path : String) (kind : String)
  | invalidSpan (path : String) (start stop : Nat) (limit : Option Nat)
deriving DecidableEq, Repr

/-- The text of an optional size inside a message. -/
def NormalizeError.limitText : Option Nat → String
  | none => "None"
  | some n => "Some(" ++ Nat.repr n ++ ")"

def NormalizeError.message : NormalizeError → String
  | .unknownKind path kind => "无法识别的值类型 " ++ kind ++ "（位置: " ++ path ++ "）"
  | .invalidSpan path start stop limit =>
    "非法区间 [" ++ Nat.repr start ++ ", " ++ Nat.repr stop ++ ")（位置: " ++ path ++ "，源码字节数: " ++
      limitText limit ++ "）"

/-! ## Shapes of raw objects -/

structure SpanWrapper where
  start : Nat
  stop : Nat
  data : Json

/-- An object is a span wrapper when `start` and `end` are natural numbers and `data` is
there; other members do not matter. -/
def SpanWrapper.ofMembers? (members : List (String × Json)) : Option SpanWrapper :=
  match (members.lookup "start").bind Json.toNat?, (members.lookup "end").bind Json.toNat?,
    members.lookup "data" with
  | some start, some stop, some data => some ⟨start, stop, data⟩
  | _, _, _ => none

/-- Data that stands for nothing: null, or an object with a truthy member `none`. -/
def Json.isAbsent : Json → Bool
  | .null => true
  | .obj members => (members.lookup "none").any Json.isTruthy
  | _ => false

def Json.isObject : Json → Bool
  | .obj _ => true
  | _ => false

/-- The wrapper around a member that repeats its key: exactly three members, data that
is an object, and in it a truthy member of the same key. -/
def SpanWrapper.ofKeyed? (key : String) : Json → Option SpanWrapper
  | .obj members =>
    if members.length = 3 then
      (SpanWrapper.ofMembers? members).filter fun w => (w.data.get? key).any Json.isTruthy
    else none
  | _ => none

/-! ## Parts of normal forms -/

/-- Only objects carry a span; it replaces one that is there. -/
def Node.withSpan (span : Span) : Node → Node
  | .object name fields _ => .object name fields (some span)
  | node => node

/-- An object under a new name; null becomes an object without fields, and nothing else
takes a name. -/
def Node.named? (name : String) : Node → Option Node
  | .object _ fields span => some (.object (some name) fields span)
  | .leaf .null => some (.object (some name) [] none)
  | _ => none

/-- The span of a wrapper at a location. -/
def checkSpan (limit : Option Nat) (location : Location) (start stop : Nat) :
    Except NormalizeError Span :=
  if stop < start || limit.any (· < stop) then
    .error (.invalidSpan (location.text Place.escapeQuote) start stop limit)
  else .ok ⟨start, stop⟩

/-! ## The normal form -/

namespace Normal

mutual

/-- The normal form of a value at a location. -/
def visit (limit : Option Nat) (location : Location) : Json → Except NormalizeError Node
  | .null => .ok .null
  | .bool b => .ok (.leaf (.bool b))
  -- A number always has a double, so there is no failure to report here.
  | .num n => .ok (.leaf (.num n.toDouble))
  | .str s => .ok (.leaf (Leaf.ofText s))
  | .arr items => (visitItems limit location 0 items).map .array
  | .obj members =>
    match SpanWrapper.ofMembers? members with
    | some w =>
      -- The bounds of a wrapper around nothing are not looked at.
      if w.data.isAbsent then .ok .null
      else
        (checkSpan limit location w.start w.stop).bind fun span =>
          (visitMember limit (location ++ [.key "data"]) "data" members).map (Node.withSpan span)
    | none =>
      (visitSole limit location members).bind fun
        | some named => .ok named
        | none => (visitFields limit location members).map fun fields => .object none fields none

/-- The normal forms of items, the first of them being item `i`. -/
def visitItems (limit : Option Nat) (location : Location) (i : Nat) :
    List Json → Except NormalizeError (List Node)
  | [] => .ok []
  | item :: rest =>
    (visit limit (location ++ [.index i]) item).bind fun node =>
      (visitItems limit location (i + 1) rest).map (node :: ·)

/-- The normal form of a name wrapper, if the members are those of one. -/
def visitSole (limit : Option Nat) (location : Location) :
    List (String × Json) → Except NormalizeError (Option Node)
  | [(key, value)] =>
    if value.isObject then
      (visit limit (location ++ [.key key]) value).map (Node.named? (pascalCase key))
    else .ok none
  | _ => .ok none

def visitFields (limit : Option Nat) (location : Location) :
    List (String × Json) → Except NormalizeError (List (String × Node))
  | [] => .ok []
  | (key, value) :: rest =>
    let child : Except NormalizeError Node :=
      match SpanWrapper.ofKeyed? key value with
      | some w =>
        (checkSpan limit (location ++ [.key key]) w.start w.stop).bind fun span =>
          (visitKeyed limit (location ++ [.key key, .key "data", .key key]) key value).map
            (Node.withSpan span)
      | none => visit limit (location ++ [.key key]) value
    child.bind fun node => (visitFields limit location rest).map ((key, node) :: ·)

/-- The normal form of the first member under a key, which stands at `location`; null if
there is none. -/
def visitMember (limit : Option Nat) (location : Location) (key : String) :
    List (String × Json) → Except NormalizeError Node
  | [] => .ok .null
  | (k, value) :: rest =>
    if k = key then visit limit location value else visitMember limit location key rest

/-- The normal form of the member under a key of the data of a wrapper. -/
def visitKeyed (limit : Option Nat) (location : Location) (key : String) :
    Json → Except NormalizeError Node
  | .obj members => visitData limit location key members
  | _ => .ok .null

/-- The normal form of the member under a key of the member `data`. -/
def visitData (limit : Option Nat) (location : Location) (key : String) :
    List (String × Json) → Except NormalizeError Node
  | [] => .ok .null
  | (k, value) :: rest =>
    if k = "data" then visitInner limit location key value else visitData limit location key rest

/-- The normal form of the member under a key of an object. -/
def visitInner (limit : Option Nat) (location : Location) (key : String) :
    Json → Except NormalizeError Node
  | .obj members => visitMember limit location key members
  | _ => .ok .null

end

end Normal

/-- The normal form of raw data; `limit` is the size of the source in bytes, if it is
known. -/
def normalize (limit : Option Nat) (raw : Json) : Except NormalizeError Node :=
  Normal.visit limit [] raw

end TreeLens

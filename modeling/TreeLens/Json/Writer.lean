import TreeLens.Decimal.Layout
import TreeLens.Json.Basic
import TreeLens.Text.Hex

/-!
# Writing JSON

Two forms: `Json.compact` has no blanks, and `Json.pretty` puts each item and member on
a line of its own, indented by two blanks a level, with empty containers closed at once.
Quoted text escapes quotes, backslashes and control characters, and nothing else.
-/

namespace TreeLens

namespace Json

/-- A character as it is written inside quotes. -/
def quoteChar (c : Char) : List Char :=
  if c = '"' then ['\\', '"']
  else if c = '\\' then ['\\', '\\']
  else if c = '\x08' then ['\\', 'b']
  else if c = '\x0c' then ['\\', 'f']
  else if c = '\n' then ['\\', 'n']
  else if c = '\r' then ['\\', 'r']
  else if c = '\t' then ['\\', 't']
  else if c.toNat < 0x20 then
    ['\\', 'u', '0', '0', hexDigit (c.toNat / 16), hexDigit (c.toNat % 16)]
  else [c]

def quote (s : String) : String :=
  "\"" ++ String.ofList (s.toList.flatMap quoteChar) ++ "\""

/-- A number; a double always shows a point or an exponent, and one that is not finite
is null. -/
def writeNumber : Number → String
  | .int i => (if i < 0 then "-" else "") ++ Nat.repr i.natAbs
  | .float d => if d.isFinite then d.render .data else "null"

/-! ## Without blanks -/

mutual

/-- Writes a value without blanks after the text `out`. -/
def compactOnto (out : String) : Json → String
  | .null => out ++ "null"
  | .bool b => out ++ (if b then "true" else "false")
  | .num n => out ++ writeNumber n
  | .str s => out ++ quote s
  | .arr [] => out ++ "[]"
  | .arr (item :: rest) => compactItems (item.compactOnto (out ++ "[")) rest ++ "]"
  | .obj [] => out ++ "\x7b\x7d"
  | .obj ((key, value) :: rest) =>
    compactMembers (value.compactOnto (out ++ "\x7b" ++ quote key ++ ":")) rest ++ "\x7d"

def compactItems (out : String) : List Json → String
  | [] => out
  | item :: rest => compactItems (item.compactOnto (out ++ ",")) rest

def compactMembers (out : String) : List (String × Json) → String
  | [] => out
  | (key, value) :: rest =>
    compactMembers (value.compactOnto (out ++ "," ++ quote key ++ ":")) rest

end

def compact (value : Json) : String :=
  value.compactOnto ""

/-! ## On several lines -/

/-- The start of a line at a level. -/
def newline (level : Nat) : String :=
  "\n" ++ String.ofList (List.replicate (2 * level) ' ')

mutual

/-- Writes a value on several lines after the text `out`; `level` is the value's own
level. -/
def prettyOnto (level : Nat) (out : String) : Json → String
  | .null => out ++ "null"
  | .bool b => out ++ (if b then "true" else "false")
  | .num n => out ++ writeNumber n
  | .str s => out ++ quote s
  | .arr [] => out ++ "[]"
  | .arr (item :: rest) =>
    prettyItems (level + 1)
      (item.prettyOnto (level + 1) (out ++ "[" ++ newline (level + 1))) rest ++
      newline level ++ "]"
  | .obj [] => out ++ "\x7b\x7d"
  | .obj ((key, value) :: rest) =>
    prettyMembers (level + 1)
      (value.prettyOnto (level + 1)
        (out ++ "\x7b" ++ newline (level + 1) ++ quote key ++ ": ")) rest ++
      newline level ++ "\x7d"

/-- Writes the items after the first, each on its line. -/
def prettyItems (level : Nat) (out : String) : List Json → String
  | [] => out
  | item :: rest => prettyItems level (item.prettyOnto level (out ++ "," ++ newline level)) rest

/-- Writes the members after the first, each on its line. -/
def prettyMembers (level : Nat) (out : String) : List (String × Json) → String
  | [] => out
  | (key, value) :: rest =>
    prettyMembers level
      (value.prettyOnto level (out ++ "," ++ newline level ++ quote key ++ ": ")) rest

end

/-- A value on several lines. -/
def pretty (value : Json) : String :=
  value.prettyOnto 0 ""

end Json

end TreeLens

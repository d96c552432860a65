import TreeLens.Decimal.Stepwise
import TreeLens.Json.Basic
import TreeLens.Text.Hex

/-!
# Reading JSON

The reader takes a text one character at a time. Its state is the containers that are
open, what may come next, and where in a token it stands; `Reader.step` is one
character's move and `Reader.run` the whole text's. The grammar is the strict one: no
leading zeros, plus signs, comments or trailing commas, no raw control characters in
quoted text, and surrogate escapes only in pairs. Containers may be nested `maxDepth`
deep.

`Json.readRaw?` keeps repeated keys as they are written and `Json.read?` merges them.
-/

namespace TreeLens

/-- The number a strict numeral stands for: an integer if it is written as one and fits
64 bits, signed for a negative one and unsigned otherwise; else a double, rounded step by
step, which has to be finite. Negative zero is a double. -/
def Number.ofNumeral? (n : Numeral) : Option Number :=
  let magnitude := Numeral.natOfDigits n.whole
  if !n.isStrict then none
  else if n.isIntegral && !n.isNegative && magnitude < 0x10000000000000000 then
    some (.int magnitude)
  else if n.isIntegral && n.isNegative && magnitude ≠ 0 && magnitude ≤ 0x8000000000000000 then
    some (.int (-(magnitude : Int)))
  else n.stepwise?.map .float

namespace Json

/-- How deep containers may be nested. -/
def maxDepth : Nat := 127

/-- The value of an unquoted token. -/
def ofAtom? (atom : List Char) : Option Json :=
  if atom = ['n', 'u', 'l', 'l'] then some .null
  else if atom = ['t', 'r', 'u', 'e'] then some (.bool true)
  else if atom = ['f', 'a', 'l', 's', 'e'] then some (.bool false)
  else (Numeral.read? atom).bind fun n => (Number.ofNumeral? n).map .num

/-- Characters between tokens. -/
def isBlank (c : Char) : Bool :=
  c == ' ' || c == '\t' || c == '\n' || c == '\r'

/-- Characters of unquoted tokens. -/
def isAtomChar (c : Char) : Bool :=
  c.isAlphanum || c == '-' || c == '+' || c == '.'

/-- The character a one-letter escape stands for. -/
def unescape? : Char → Option Char
  | '"' => some '"'
  | '\\' => some '\\'
  | '/' => some '/'
  | 'b' => some '\x08'
  | 'f' => some '\x0c'
  | 'n' => some '\n'
  | 'r' => some '\r'
  | 't' => some '\t'
  | _ => none

/-- The character of a pair of surrogate code units. -/
def ofSurrogates (high low : Nat) : Char :=
  Char.ofNat (0x10000 + (high - 0xD800) * 0x400 + (low - 0xDC00))

/-- A container that is not closed yet, with what it holds so far, latest first. An
object that waits for a value has its key. -/
inductive Frame where
  | array (items : List Json)
  | object (members : List (String × Json)) (key : Option String)

/-- What may come next. -/
inductive Expect where
  | value
  /-- A value, or the end of an array without items. -/
  | firstItem
  /-- A key, or the end of an object without members. -/
  | firstKey
  | key
  | colon
  /-- A comma, or the end of the container. -/
  | separator
  /-- Nothing: the value is complete. -/
  | nothing (value : Json)

/-- Where in a token the reader stands. Characters read so far are kept latest first. -/
inductive Mode where
  | free
  | atom (read : List Char)
  | text (read : List Char)
  | escape (read : List Char)
  /-- In a code escape with `due` digits to come; `high` is the first half of a pair. -/
  | code (read : List Char) (high : Option Nat) (due : Nat) (value : Nat)
  /-- After the first half of a pair, where a backslash has to follow. -/
  | pair (read : List Char) (high : Nat)
  /-- After the backslash of the second half of a pair. -/
  | pairMark (read : List Char) (high : Nat)

structure Reader where
  frames : List Frame
  expect : Expect
  mode : Mode

namespace Reader

def start : Reader :=
  ⟨[], .value, .free⟩

def wantsValue (r : Reader) : Bool :=
  match r.expect with
  | .value => true
  | .firstItem => true
  | _ => false

/-- Takes a complete value into the innermost container. -/
def complete (frames : List Frame) (value : Json) : Option Reader :=
  match frames with
  | [] => some ⟨[], .nothing value, .free⟩
  | .array items :: outer => some ⟨.array (value :: items) :: outer, .separator, .free⟩
  | .object members (some key) :: outer =>
    some ⟨.object ((key, value) :: members) none :: outer, .separator, .free⟩
  | .object _ none :: _ => none

def completeAtom (r : Reader) (read : List Char) : Option Reader :=
  (ofAtom? read.reverse).bind (complete r.frames)

/-- Takes a complete quoted text, as a value or as a key. -/
def completeText (r : Reader) (read : List Char) : Option Reader :=
  let text := String.ofList read.reverse
  match r.expect, r.frames with
  | .value, frames => complete frames (.str text)
  | .firstItem, frames => complete frames (.str text)
  | .firstKey, .object members none :: outer =>
    some ⟨.object members (some text) :: outer, .colon, .free⟩
  | .key, .object members none :: outer =>
    some ⟨.object members (some text) :: outer, .colon, .free⟩
  | _, _ => none

def openFrame (r : Reader) (frame : Frame) (expect : Expect) : Option Reader :=
  if r.wantsValue && r.frames.length < maxDepth then some ⟨frame :: r.frames, expect, .free⟩
  else none

def closeArray (r : Reader) : Option Reader :=
  match r.expect, r.frames with
  | .firstItem, .array items :: outer => complete outer (.arr items.reverse)
  | .separator, .array items :: outer => complete outer (.arr items.reverse)
  | _, _ => none

def closeObject (r : Reader) : Option Reader :=
  match r.expect, r.frames with
  | .firstKey, .object members none :: outer => complete outer (.obj members.reverse)
  | .separator, .object members none :: outer => complete outer (.obj members.reverse)
  | _, _ => none

def comma (r : Reader) : Option Reader :=
  match r.expect, r.frames with
  | .separator, .array _ :: _ => some { r with expect := .value }
  | .separator, .object _ _ :: _ => some { r with expect := .key }
  | _, _ => none

def colon (r : Reader) : Option Reader :=
  match r.expect with
  | .colon => some { r with expect := .value }
  | _ => none

/-- Takes a character between tokens. -/
def stepFree (r : Reader) (c : Char) : Option Reader :=
  if isBlank c then some r
  else if c = '[' then r.openFrame (.array []) .firstItem
  else if c = '\x7b' then r.openFrame (.object [] none) .firstKey
  else if c = ']' then r.closeArray
  else if c = '\x7d' then r.closeObject
  else if c = ',' then r.comma
  else if c = ':' then r.colon
  else if c = '"' then some { r with mode := .text [] }
  else if isAtomChar c && r.wantsValue then some { r with mode := .atom [c] }
  else none

/-- Takes a code unit of an escape that is complete. -/
def completeCode (r : Reader) (read : List Char) (high : Option Nat) (unit : Nat) : Option Reader :=
  let isLow := 0xDC00 ≤ unit && unit < 0xE000
  match high with
  | some h =>
    if isLow then some { r with mode := .text (ofSurrogates h unit :: read) } else none
  | none =>
    if isLow then none
    else if 0xD800 ≤ unit && unit < 0xDC00 then some { r with mode := .pair read unit }
    else some { r with mode := .text (Char.ofNat unit :: read) }

def step (r : Reader) (c : Char) : Option Reader :=
  match r.mode with
  | .free => r.stepFree c
  | .atom read =>
    if isAtomChar c then some { r with mode := .atom (c :: read) }
    else (r.completeAtom read).bind (·.stepFree c)
  | .text read =>
    if c = '"' then r.completeText read
    else if c = '\\' then some { r with mode := .escape read }
    else if c.toNat < 0x20 then none
    else some { r with mode := .text (c :: read) }
  | .escape read =>
    if c = 'u' then some { r with mode := .code read none 4 0 }
    else (unescape? c).map fun e => { r with mode := .text (e :: read) }
  | .code read high due value =>
    (hexValue? c).bind fun digit =>
      if due ≤ 1 then r.completeCode read high (16 * value + digit)
      else some { r with mode := .code read high (due - 1) (16 * value + digit) }
  | .pair read high =>
    if c = '\\' then some { r with mode := .pairMark read high } else none
  | .pairMark read high =>
    if c = 'u' then some { r with mode := .code read (some high) 4 0 } else none

def run (r : Reader) : List Char → Option Reader
  | [] => some r
  | c :: rest => (r.step c).bind fun next => next.run rest

/-- The value at the end of the text. -/
def finish (r : Reader) : Option Json :=
  match r.mode with
  | .free =>
    match r.expect with
    | .nothing value => some value
    | _ => none
  | .atom read =>
    (r.completeAtom read).bind fun last =>
      match last.expect with
      | .nothing value => some value
      | _ => none
  | _ => none

end Reader

/-- The value of a text, with repeated keys as they are written. -/
def readRaw? (text : String) : Option Json :=
  (Reader.start.run text.toList).bind Reader.finish

/-- The value of a text, with repeated keys merged. -/
def read? (text : String) : Option Json :=
  (readRaw? text).map merged

end Json

end TreeLens

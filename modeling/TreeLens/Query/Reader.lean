import TreeLens.Decimal.Numeral
import TreeLens.Json.Reader
import TreeLens.Query.Basic
import TreeLens.Text.WhiteSpace

/-!
# Reading queries

A query is written as `$` and then its segments: `.name`, `.*`, a list of selectors in
brackets, or any of these after two dots, which makes it descend. Names after a dot
start with a letter, an underscore or a character beyond ASCII and go on with these or
digits; any other name is quoted in brackets.

Blanks may stand inside brackets and before a segment. In a name after a dot they may
stand between its characters, where they are part of the name, and after its first
character even if no other follows. So a text may end in blanks after a name of one
character, and nowhere else. White space of other kinds counts as letters, but a name
does not start with white space, and white space at its end is left out.

The reader takes one character at a time.
-/

namespace TreeLens

namespace Query

/-- Letters, the underscore and all characters beyond ASCII. -/
def isNameLetter (c : Char) : Bool :=
  c.isAlpha || c == '_' || 0x80 ≤ c.toNat

/-- Characters that start a name after a dot. -/
def isNameStart (c : Char) : Bool :=
  isNameLetter c && !isWhiteSpace c

/-- Characters that go on with a name after a dot. -/
def isNameChar (c : Char) : Bool :=
  isNameLetter c || c.isDigit || Json.isBlank c

/-- The name of characters read after a dot, latest first: white space at its end is left
out. -/
def nameOf (read : List Char) : String :=
  String.ofList (read.dropWhile isWhiteSpace).reverse

/-- Whether a text may end with the characters read after a dot, latest first: the last
one is not a blank, or all but the first one are blanks. -/
def mayEndName (read : List Char) : Bool :=
  !read.head?.any Json.isBlank || (read.dropWhile Json.isBlank).length == 1

/-- The greatest number that may be written: whole doubles are exact up to it. -/
def maxNumber : Nat := 0x1FFFFFFFFFFFFF

/-- A natural number without leading zeros. -/
def readNat? (digits : List Char) : Option Nat :=
  if digits = ['0'] || (!digits.isEmpty && digits.all Char.isDigit && digits.head? != some '0') then
    let n := Numeral.natOfDigits digits
    if n ≤ maxNumber then some n else none
  else none

/-- An integer without leading zeros; zero has no sign. -/
def readInt? : List Char → Option Int
  | '-' :: digits => if digits = ['0'] then none else (readNat? digits).map fun n => -(n : Int)
  | digits => (readNat? digits).map fun n => (n : Int)

def trim (text : List Char) : List Char :=
  ((text.dropWhile Json.isBlank).reverse.dropWhile Json.isBlank).reverse

/-- An integer or nothing, among blanks. -/
def readBound? (text : List Char) : Option (Option Int) :=
  match trim text with
  | [] => some none
  | digits => (readInt? digits).map some

def splitColons : List Char → List (List Char)
  | [] => [[]]
  | c :: rest =>
    match splitColons rest with
    | part :: parts => if c = ':' then [] :: part :: parts else (c :: part) :: parts
    | [] => [[c]]

/-- A selector that is not quoted. -/
def readSelector? (text : List Char) : Option Selector :=
  if trim text = ['*'] then some .wildcard
  else
    match splitColons text with
    | [number] => (readInt? (trim number)).map .index
    | [start, stop] => do return .slice (← readBound? start) (← readBound? stop) none
    | [start, stop, step] => do
      return .slice (← readBound? start) (← readBound? stop) (← readBound? step)
    | _ => none

/-- The character that a one-letter escape stands for inside a kind of quotes. -/
def unescape? (quote c : Char) : Option Char :=
  if c = quote then some quote
  else if c = '"' then none
  else Json.unescape? c

/-- A list of selectors that is being read: whether it descends, and its selectors,
latest first. -/
structure Bracket where
  descends : Bool
  selectors : List Selector

/-- Where the reader stands. Characters read so far are kept latest first. -/
inductive Mode where
  /-- Before the dollar sign. -/
  | start
  /-- After a segment. -/
  | ready
  /-- At blanks after a segment. -/
  | gap
  | dot
  | dots
  /-- In a name after dots. -/
  | name (descends : Bool) (read : List Char)
  /-- In brackets, before a selector. -/
  | bracket (b : Bracket)
  /-- In a selector that is not quoted. -/
  | plain (b : Bracket) (read : List Char)
  | after (b : Bracket)
  | quoted (b : Bracket) (quote : Char) (read : List Char)
  | escape (b : Bracket) (quote : Char) (read : List Char)
  /-- In a code escape with `due` digits to come; `high` is the first half of a pair. -/
  | code (b : Bracket) (quote : Char) (read : List Char) (high : Option Nat) (due value : Nat)
  /-- After the first half of a pair, where a backslash has to follow. -/
  | pair (b : Bracket) (quote : Char) (read : List Char) (high : Nat)
  /-- After the backslash of the second half of a pair. -/
  | pairMark (b : Bracket) (quote : Char) (read : List Char) (high : Nat)

/-- The state of the reader: the segments read so far, latest first, and where it
stands. -/
structure Reader where
  segments : List Segment
  mode : Mode

namespace Reader

def start : Reader :=
  ⟨[], .start⟩

def push (r : Reader) (descends : Bool) (selectors : List Selector) : Reader :=
  ⟨⟨descends, selectors⟩ :: r.segments, .ready⟩

def goto (r : Reader) (mode : Mode) : Reader :=
  { r with mode }

def stepReady (r : Reader) (c : Char) : Option Reader :=
  if c = '.' then some (r.goto .dot)
  else if c = '[' then some (r.goto (.bracket ⟨false, []⟩))
  else if Json.isBlank c then some (r.goto .gap)
  else none

def stepAfter (r : Reader) (b : Bracket) (c : Char) : Option Reader :=
  if c = ',' then some (r.goto (.bracket b))
  else if c = ']' then some (r.push b.descends b.selectors.reverse)
  else if Json.isBlank c then some (r.goto (.after b))
  else none

/-- Takes a code unit of an escape that is complete. -/
def completeCode (r : Reader) (b : Bracket) (quote : Char) (read : List Char) (high : Option Nat)
    (unit : Nat) : Option Reader :=
  let isLow := 0xDC00 ≤ unit && unit < 0xE000
  match high with
  | some h =>
    if isLow then some (r.goto (.quoted b quote (Json.ofSurrogates h unit :: read))) else none
  | none =>
    if isLow then none
    else if 0xD800 ≤ unit && unit < 0xDC00 then some (r.goto (.pair b quote read unit))
    else some (r.goto (.quoted b quote (Char.ofNat unit :: read)))

def step (r : Reader) (c : Char) : Option Reader :=
  match r.mode with
  | .start => if c = '$' then some (r.goto .ready) else none
  | .ready => r.stepReady c
  | .gap => r.stepReady c
  | .dot =>
    if c = '.' then some (r.goto .dots)
    else if c = '*' then some (r.push false [.wildcard])
    else if isNameStart c then some (r.goto (.name false [c]))
    else none
  | .dots =>
    if c = '[' then some (r.goto (.bracket ⟨true, []⟩))
    else if c = '*' then some (r.push true [.wildcard])
    else if isNameStart c then some (r.goto (.name true [c]))
    else none
  | .name descends read =>
    if isNameChar c then some (r.goto (.name descends (c :: read)))
    else (r.push descends [.name (nameOf read)]).stepReady c
  | .bracket b =>
    if c = '\'' ∨ c = '"' then some (r.goto (.quoted b c []))
    else if Json.isBlank c then some (r.goto (.bracket b))
    else if c = ',' ∨ c = ']' then none
    else some (r.goto (.plain b [c]))
  | .plain b read =>
    if c = ',' ∨ c = ']' then
      (readSelector? read.reverse).bind fun selector =>
        r.stepAfter ⟨b.descends, selector :: b.selectors⟩ c
    else some (r.goto (.plain b (c :: read)))
  | .after b => r.stepAfter b c
  | .quoted b quote read =>
    if c = quote then
      some (r.goto (.after ⟨b.descends, .name (String.ofList read.reverse) :: b.selectors⟩))
    else if c = '\\' then some (r.goto (.escape b quote read))
    else if c.toNat < 0x20 then none
    else some (r.goto (.quoted b quote (c :: read)))
  | .escape b quote read =>
    if c = 'u' then some (r.goto (.code b quote read none 4 0))
    else (unescape? quote c).map fun e => r.goto (.quoted b quote (e :: read))
  | .code b quote read high due value =>
    (hexValue? c).bind fun digit =>
      if due ≤ 1 then r.completeCode b quote read high (16 * value + digit)
      else some (r.goto (.code b quote read high (due - 1) (16 * value + digit)))
  | .pair b quote read high =>
    if c = '\\' then some (r.goto (.pairMark b quote read high)) else none
  | .pairMark b quote read high =>
    if c = 'u' then some (r.goto (.code b quote read (some high) 4 0)) else none

def run (r : Reader) : List Char → Option Reader
  | [] => some r
  | c :: rest => (r.step c).bind fun next => next.run rest

def finish (r : Reader) : Option Query :=
  match r.mode with
  | .ready => some r.segments.reverse
  | .name descends read =>
    if mayEndName read then some (r.push descends [.name (nameOf read)]).segments.reverse
    else none
  | _ => none

end Reader

def read? (text : String) : Option Query :=
  (Reader.start.run text.toList).bind Reader.finish

end Query

end TreeLens

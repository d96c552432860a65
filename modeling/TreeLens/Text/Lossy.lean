/-!
# Bytes read as text, whatever they are

`lossyText` reads any bytes as encoded text. A byte that begins no character, and a
character that was begun and is not gone on with, give one replacement character each;
the byte that does not go on with it is then read anew. The bounds of the second byte
leave out encodings that are longer than needed, surrogates, and codes beyond the last
character, so what is read is never one of those.
-/

namespace TreeLens

/-- The character that stands for bytes that are no text. -/
def replacementChar : Char := '\uFFFD'

/-- A character of several bytes that was begun: its bits so far, how many bytes are due,
and the bounds of the next one. -/
structure BegunChar where
  bits : Nat
  due : Nat
  low : Nat
  high : Nat
deriving DecidableEq, Repr

namespace BegunChar

/-- The character of several bytes that a byte begins. -/
def ofLead? (lead : Nat) : Option BegunChar :=
  if lead < 0xC2 then none
  else if lead < 0xE0 then some ⟨lead - 0xC0, 1, 0x80, 0xBF⟩
  else if lead < 0xF0 then
    some ⟨lead - 0xE0, 2, if lead = 0xE0 then 0xA0 else 0x80, if lead = 0xED then 0x9F else 0xBF⟩
  else if lead < 0xF5 then
    some ⟨lead - 0xF0, 3, if lead = 0xF0 then 0x90 else 0x80, if lead = 0xF4 then 0x8F else 0xBF⟩
  else none

/-- Takes a byte where a character may begin: what is read, and the character that is
begun. -/
def start (byte : Nat) : List Char × Option BegunChar :=
  if byte < 0x80 then ([Char.ofNat byte], none)
  else
    match ofLead? byte with
    | some begun => ([], some begun)
    | none => ([replacementChar], none)

/-- Takes a byte after a character was begun. -/
def goOn (begun : BegunChar) (byte : Nat) : List Char × Option BegunChar :=
  if begun.low ≤ byte ∧ byte ≤ begun.high then
    let bits := 64 * begun.bits + byte % 64
    if begun.due ≤ 1 then ([Char.ofNat bits], none)
    else ([], some ⟨bits, begun.due - 1, 0x80, 0xBF⟩)
  else
    let (read, next) := start byte
    (replacementChar :: read, next)

end BegunChar

/-- The characters of bytes after a character was begun, if one was. -/
def lossyChars : Option BegunChar → List UInt8 → List Char
  | none, [] => []
  | some _, [] => [replacementChar]
  | none, byte :: rest =>
    let (read, next) := BegunChar.start byte.toNat
    read ++ lossyChars next rest
  | some begun, byte :: rest =>
    let (read, next) := begun.goOn byte.toNat
    read ++ lossyChars next rest

def lossyText (bytes : List UInt8) : String :=
  String.ofList (lossyChars none bytes)

end TreeLens

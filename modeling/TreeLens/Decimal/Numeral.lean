import TreeLens.Decimal.Double

/-!
# Decimal numerals

A numeral is an optional sign, digits with at most one point, and an optional exponent.
`Numeral.read?` splits a text into those parts without judging them; the two grammars
`isLiteral` (any such text with a digit beside the point) and `isStrict` (no leading
zero, no plus sign, digits on both sides of a point) then say which texts are numerals.
`Numeral.toDouble` rounds the exact decimal once.
-/

namespace TreeLens

/-- The parts of a decimal numeral as they are written; a part that is absent is
`none`. -/
structure Numeral where
  sign : Option Char
  whole : List Char
  fraction : Option (List Char)
  exponent : Option (Option Char × List Char)
deriving DecidableEq, Repr

namespace Numeral

/-- The number written by decimal digits, the first digit being the highest. -/
def natOfDigits (digits : List Char) : Nat :=
  digits.foldl (fun n c => 10 * n + (c.toNat - '0'.toNat)) 0

/-- Splits an optional plus or minus sign off a text. -/
def splitSign : List Char → Option Char × List Char
  | '+' :: rest => (some '+', rest)
  | '-' :: rest => (some '-', rest)
  | rest => (none, rest)

/-- Splits a point and the digits after it off a text. -/
def splitFraction : List Char → Option (List Char) × List Char
  | '.' :: rest => (some (rest.takeWhile Char.isDigit), rest.dropWhile Char.isDigit)
  | rest => (none, rest)

/-- Reads a text that is empty or an exponent, with nothing after it. -/
def readExponent? : List Char → Option (Option (Option Char × List Char))
  | [] => some none
  | mark :: rest =>
    if mark = 'e' ∨ mark = 'E' then
      let (sign, digits) := splitSign rest
      if digits ≠ [] ∧ digits.all Char.isDigit then some (some (sign, digits)) else none
    else none

/-- The parts of a text; `none` when something other than those parts is left over. -/
def read? (text : List Char) : Option Numeral :=
  let (sign, rest) := splitSign text
  let (fraction, tail) := splitFraction (rest.dropWhile Char.isDigit)
  (readExponent? tail).map fun exponent =>
    { sign, whole := rest.takeWhile Char.isDigit, fraction, exponent }

/-- A numeral is negative when it is written with a minus sign. -/
def isNegative (n : Numeral) : Bool :=
  n.sign == some '-'

/-- A numeral of the free form has at least one digit beside the point. -/
def isLiteral (n : Numeral) : Bool :=
  !n.whole.isEmpty || n.fraction.any (!·.isEmpty)

/-- A numeral of the strict form has no plus sign, a whole part without leading zeros,
and digits after a point if it has one. -/
def isStrict (n : Numeral) : Bool :=
  n.sign != some '+' &&
  (n.whole == ['0'] || (!n.whole.isEmpty && n.whole.head? != some '0')) &&
  n.fraction.all (!·.isEmpty)

/-- A numeral is integral when it is written without point and exponent. -/
def isIntegral (n : Numeral) : Bool :=
  n.fraction.isNone && n.exponent.isNone

/-- The exponent as an integer, zero if none is written. -/
def exponentValue (n : Numeral) : Int :=
  match n.exponent with
  | none => 0
  | some (some '-', digits) => -(natOfDigits digits : Int)
  | some (_, digits) => natOfDigits digits

/-- The double nearest to the decimal that is written. -/
def toDouble (n : Numeral) : Double :=
  let places := n.fraction.getD []
  Double.ofDecimal n.isNegative (natOfDigits (n.whole ++ places)) (n.exponentValue - places.length)

end Numeral

/-- The double nearest to a text of the free form; `none` for any other text. A decimal
beyond the largest double reads as infinity. -/
def Double.read? (text : String) : Option Double := do
  let numeral ← Numeral.read? text.toList
  if numeral.isLiteral then some numeral.toDouble else none

end TreeLens

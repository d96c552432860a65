import TreeLens.Decimal.Numeral

/-!
# Decimals rounded step by step

Numbers of data files are not rounded once, as `Numeral.toDouble` does it. The digits are
taken as a natural number of at most 64 bits, which is rounded to a double; this is
multiplied or divided by a power of ten, which is a rounded double itself, and the result
is rounded again. For few digits and small exponents all steps but the last are exact. In
general the result can be off by the last bit: `1.1e-30` gives the double that is written
`1.1000000000000001e-30`.
-/

namespace TreeLens

namespace Double

/-- The product of two finite magnitudes, rounded once. -/
def mul (a b : Double) : Double :=
  let (num, den) := scaledRatio (a.significand * b.significand) 1 (-(a.scale + b.scale))
  ofRatio false num den

/-- The quotient of two finite magnitudes, the second of which is not zero, rounded
once. -/
def div (a b : Double) : Double :=
  let (num, den) := scaledRatio a.significand b.significand (b.scale - a.scale)
  ofRatio false num den

/-- The double nearest to a power of ten. -/
def powerOfTen (n : Nat) : Double :=
  ofDecimal false 1 n

/-- The greatest power of ten that is a finite double. -/
def maxPower : Nat := 308

/-- A value divided by `10 ^ maxPower` a number of times, but no more once it is zero. -/
def divMaxPowers : Nat → Double → Double
  | 0, d => d
  | count + 1, d => if d.isZero then d else divMaxPowers count (d.div (powerOfTen maxPower))

/-- A magnitude times a power of ten, in steps of at most `maxPower` places; `none` for
one that is too large. -/
def shift? (d : Double) (exponent : Int) : Option Double :=
  if 0 ≤ exponent then
    if exponent ≤ maxPower then
      let product := d.mul (powerOfTen exponent.toNat)
      if product.isFinite then some product else none
    else if d.isZero then some d
    else none
  else
    let places := exponent.natAbs
    let count := (places - 1) / maxPower
    some ((divMaxPowers count d).div (powerOfTen (places - count * maxPower)))

end Double

namespace Numeral

/-- Takes digits into a number as long as it has at most 64 bits: the number, and the
digits that are left. -/
def takeDigits : Nat → List Char → Nat × List Char
  | n, [] => (n, [])
  | n, c :: rest =>
    let next := 10 * n + (c.toNat - '0'.toNat)
    if next < 0x10000000000000000 then takeDigits next rest else (n, c :: rest)

/-- The digits that are taken as a natural number, and the power of ten that goes with
it. Whole digits that are left count as zeros, and decimal places that are left are
dropped. -/
def leadingDigits (n : Numeral) : Nat × Int :=
  let places := n.fraction.getD []
  let (whole, zeros) := takeDigits 0 n.whole
  let (digits, dropped) := takeDigits whole places
  (digits, (zeros.length : Int) - ((places.length : Int) - dropped.length))

/-- The double of a decimal by the steps above; `none` for one that is too large. A
written exponent of more than 31 bits is not computed with: the decimal is then zero or
too large. -/
def stepwise? (n : Numeral) : Option Double :=
  let (digits, exponent) := n.leadingDigits
  let magnitude : Option Double :=
    if n.exponentValue.natAbs < 0x80000000 then
      (Double.ofNat digits).shift? (exponent + n.exponentValue)
    else if digits = 0 ∨ n.exponentValue < 0 then some (.zero false)
    else none
  magnitude.map fun d => { d with negative := n.isNegative }

end Numeral

end TreeLens

/-!
# Binary floating point values

A `Double` is the sign, the exponent field and the fraction field of a 64-bit binary
floating point value, so two of them are equal exactly when all their bits are. All
arithmetic here is exact arithmetic on natural numbers: `ofRatio` rounds a quotient
once, to the nearest value, and a quotient half way between two values goes to the one
with the even significand.
-/

namespace TreeLens

/-- A double-precision value by its three fields. -/
structure Double where
  negative : Bool
  exponent : Fin 2048
  fraction : Fin 0x10000000000000
deriving DecidableEq, Inhabited, Repr

namespace Double

/-! ## Classes of values -/

def zero (negative : Bool) : Double :=
  ⟨negative, 0, 0⟩

/-- Infinity of either sign: the exponent field is all ones and the fraction is zero. -/
def infinity (negative : Bool) : Double :=
  ⟨negative, 2047, 0⟩

def nan : Double :=
  ⟨false, 2047, 0x8000000000000⟩

/-- A value is finite when its exponent field is not all ones. -/
def isFinite (d : Double) : Bool :=
  d.exponent.val != 2047

/-- A value with all-ones exponent and a fraction other than zero is no number. -/
def isNaN (d : Double) : Bool :=
  d.exponent.val == 2047 && d.fraction.val != 0

def isZero (d : Double) : Bool :=
  d.exponent.val == 0 && d.fraction.val == 0

/-! ## The magnitude of a finite value -/

/-- The leading bit of a significand, `2 ^ 52`, which a value with a non-zero exponent
field has without storing it. -/
def leadingBit : Nat := 0x10000000000000

/-- The integer significand: a finite value is `significand * 2 ^ scale` up to its
sign. -/
def significand (d : Double) : Nat :=
  if d.exponent.val = 0 then d.fraction.val else leadingBit + d.fraction.val

/-- The power of two that goes with `significand`. -/
def scale (d : Double) : Int :=
  (max d.exponent.val 1 : Nat) - (1075 : Int)

/-- The least power of two that a significand is scaled by. -/
def minScale : Int := -1074

/-! ## Rounding a quotient -/

/-- The quotient of two naturals rounded to the nearest natural, a half to the even
one. -/
def roundDiv (num den : Nat) : Nat :=
  let q := num / den
  let r := num % den
  if 2 * r < den then q
  else if den < 2 * r then q + 1
  else q + q % 2

/-- The value `significand * 2 ^ scale` where the significand is at most `2 ^ 53`; one
that is too large is infinite. -/
def ofScaled (negative : Bool) (significand : Nat) (scale : Int) : Double :=
  if significand < leadingBit then
    ⟨negative, 0, Fin.ofNat _ significand⟩
  else
    let carried := significand = 2 * leadingBit
    let field := (if carried then scale + 1 else scale) + 1075
    if 2047 ≤ field then infinity negative
    else
      ⟨negative, Fin.ofNat _ field.toNat,
        Fin.ofNat _ (if carried then 0 else significand - leadingBit)⟩

/-- The quotient `num / (den * 2 ^ scale)` as a pair of naturals. -/
def scaledRatio (num den : Nat) (scale : Int) : Nat × Nat :=
  if 0 ≤ scale then (num, den * Nat.pow 2 scale.toNat) else (num * Nat.pow 2 (-scale).toNat, den)

/-- The value nearest to `num / den`, for `den` other than zero.

The scale is chosen so that the rounded significand has 53 bits, or is the least one for
a quotient that small. -/
def ofRatio (negative : Bool) (num den : Nat) : Double :=
  if num = 0 then zero negative
  else
    let guess := max minScale ((num.log2 : Int) - den.log2 - 53)
    let (n, d) := scaledRatio num den guess
    let scale := if n / d < 2 * leadingBit then guess else guess + 1
    let (n, d) := scaledRatio num den scale
    ofScaled negative (roundDiv n d) scale

def ofNat (n : Nat) : Double :=
  ofRatio false n 1

def ofInt (i : Int) : Double :=
  ofRatio (decide (i < 0)) i.natAbs 1

/-- The value nearest to `digits * 10 ^ exponent`.

A decimal above `10 ^ 400` is infinite, and one below `2 ^ (-1099)` is zero, whatever
its digits, so no power of ten beyond those bounds is ever computed. -/
def ofDecimal (negative : Bool) (digits : Nat) (exponent : Int) : Double :=
  if digits = 0 then zero negative
  else if 400 < exponent then infinity negative
  else if exponent < -((digits.log2 : Int) + 1100) then zero negative
  else if 0 ≤ exponent then ofRatio negative (digits * Nat.pow 10 exponent.toNat) 1
  else ofRatio negative digits (Nat.pow 10 (-exponent).toNat)

end Double

end TreeLens

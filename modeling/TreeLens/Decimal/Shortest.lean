import TreeLens.Decimal.Double

/-!
# Shortest decimals

`Double.shortest` gives the fewest decimal digits that read back as the same double, and
among decimals of that length the one nearest to the exact value; of two that are
equally near, a `Tie` rule picks one. The decimals that read back are those of the
rounding interval: all reals nearer to the value than to its neighbours, with both ends
when the significand is even. For one digit, two digits and so on the two neighbours of
the value on that decimal grid are tested; if any decimal of the grid lies in the
interval, one of the two does.
-/

namespace TreeLens

/-- The decimal `digits * 10 ^ exponent`. -/
structure Decimal where
  digits : Nat
  exponent : Int
deriving DecidableEq, Repr

namespace Decimal

/-- Moves trailing zeros of the digits into the exponent, at most `fuel` of them. -/
def trim : Nat → Decimal → Decimal
  | 0, d => d
  | fuel + 1, d =>
    if d.digits ≠ 0 ∧ d.digits % 10 = 0 then trim fuel ⟨d.digits / 10, d.exponent + 1⟩ else d

end Decimal

/-- Which of two equally near decimals is taken. -/
inductive Tie where
  /-- The one with an even last digit. -/
  | toEven
  /-- The greater one. -/
  | up
deriving DecidableEq, Repr

/-- The chosen one of the neighbours `down` and `down + 1`. -/
def Tie.choose : Tie → Nat → Nat
  | .toEven, down => down + down % 2
  | .up, down => down + 1

/-- An interval of positive rationals over one denominator, with the value it belongs
to. -/
structure RoundingInterval where
  low : Nat
  value : Nat
  high : Nat
  den : Nat
  closed : Bool
deriving Repr

namespace RoundingInterval

open Double (leadingBit)

/-- The reals that round to a positive finite double. Below a power of two the neighbour
is at half the distance. -/
def ofDouble (d : Double) : RoundingInterval :=
  let m := d.significand
  let narrow := m = leadingBit ∧ 1 < d.exponent.val
  let low := if narrow then 4 * m - 1 else 4 * m - 2
  let (up, den) :=
    if 0 ≤ d.scale then (Nat.pow 2 d.scale.toNat, 4) else (1, 4 * Nat.pow 2 (-d.scale).toNat)
  { low := low * up, value := 4 * m * up, high := (4 * m + 2) * up, den, closed := m % 2 == 0 }

/-- Whether `num / den` is in the interval, for a fraction over the interval's own
denominator. -/
def contains (i : RoundingInterval) (num : Nat) : Bool :=
  if i.closed then i.low ≤ num && num ≤ i.high else i.low < num && num < i.high

/-- The interval with all bounds multiplied by a power of ten, so that the grid
`10 ^ place` becomes the whole numbers. -/
def rescale (i : RoundingInterval) (place : Int) : RoundingInterval :=
  if 0 ≤ place then { i with den := i.den * Nat.pow 10 place.toNat }
  else
    let f := Nat.pow 10 (-place).toNat
    { i with low := i.low * f, value := i.value * f, high := i.high * f }

/-- The whole number in the interval that is nearest to its value, if the interval holds
any. -/
def nearestWhole? (tie : Tie) (i : RoundingInterval) : Option Nat :=
  let down := i.value / i.den
  let up := down + 1
  let hasDown := i.contains (down * i.den)
  let hasUp := i.contains (up * i.den)
  if hasDown && hasUp then
    let below := i.value - down * i.den
    let above := up * i.den - i.value
    some (if below < above then down else if above < below then up else tie.choose down)
  else if hasDown then some down
  else if hasUp then some up
  else none

/-- Whether the value is at least `10 ^ place`. -/
def reaches (i : RoundingInterval) (place : Int) : Bool :=
  if 0 ≤ place then i.den * Nat.pow 10 place.toNat ≤ i.value
  else i.den ≤ i.value * Nat.pow 10 (-place).toNat

/-- Raises a place, at most `fuel` times, while the value reaches the next one. -/
def raise (i : RoundingInterval) : Nat → Int → Int
  | 0, place => place
  | fuel + 1, place => if i.reaches (place + 1) then i.raise fuel (place + 1) else place

/-- The first decimal of the interval on the grids `10 ^ place`, `10 ^ (place - 1)`,
… -/
def search (tie : Tie) (i : RoundingInterval) : Nat → Int → Option Decimal
  | 0, _ => none
  | fuel + 1, place =>
    match (i.rescale place).nearestWhole? tie with
    | some digits => some ⟨digits, place⟩
    | none => i.search tie fuel (place - 1)

end RoundingInterval

namespace Double

/-- The place of the leading decimal digit of a positive finite value: it lies between
`10 ^ place` and `10 ^ (place + 1)`. The first guess comes from the place of the leading
bit and is low by at most two. -/
def leadingPlace (d : Double) : Int :=
  let bits := (d.significand.log2 : Int) + d.scale
  (RoundingInterval.ofDouble d).raise 3 (bits * 30103 / 100000 - 1)

/-- The shortest decimal of the magnitude of a finite value. Seventeen digits always
suffice. -/
def shortest (tie : Tie) (d : Double) : Decimal :=
  if d.significand = 0 then ⟨0, 0⟩
  else
    match (RoundingInterval.ofDouble d).search tie 17 d.leadingPlace with
    | some decimal => decimal.trim 17
    | none => ⟨0, 0⟩

end Double

end TreeLens

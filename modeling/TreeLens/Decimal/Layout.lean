import TreeLens.Decimal.Shortest

/-!
# Numeral layouts

A layout decides how the digits of a double are set out: which sizes are written
plainly, whether a whole value keeps a point, and how the last digit is chosen when two
decimals are equally near. Two layouts are used: `Layout.data` for data files and
`Layout.display` for text shown to people, which never has an exponent.
-/

namespace TreeLens

/-- The decisions of a number format. `plain x` says whether a value `d.ddd * 10 ^ x` is
written without an exponent; `point` says whether whole values written plainly end in
`.0`; `tie` settles the last digit. -/
structure Layout where
  plain : Int → Bool
  point : Bool
  tie : Tie

namespace Layout

/-- Data files write sizes from `10 ^ (-5)` to below `10 ^ 16` plainly and keep the
point. -/
def data : Layout where
  plain x := -5 ≤ x && x ≤ 15
  point := true
  tie := .toEven

/-- Shown text writes every size plainly and drops a needless point. -/
def display : Layout where
  plain _ := true
  point := false
  tie := .up

def zeros (n : Nat) : String :=
  String.ofList (List.replicate n '0')

/-- Digits with a point after the first `whole` of them, padded with zeros on either
side. -/
def positional (layout : Layout) (digits : List Char) (whole : Int) : String :=
  if whole ≤ 0 then
    "0." ++ zeros (-whole).toNat ++ String.ofList digits
  else if (digits.length : Int) ≤ whole then
    String.ofList digits ++ zeros (whole.toNat - digits.length) ++
      (if layout.point then ".0" else "")
  else
    String.ofList (digits.take whole.toNat) ++ "." ++ String.ofList (digits.drop whole.toNat)

/-- One digit, a point if more follow, and a signed exponent. -/
def scientific (digits : List Char) (x : Int) : String :=
  String.ofList (digits.take 1) ++
    (if digits.length ≤ 1 then "" else "." ++ String.ofList (digits.drop 1)) ++
    "e" ++ (if x < 0 then "-" else "+") ++ Nat.repr x.natAbs

def magnitude (layout : Layout) (decimal : Decimal) : String :=
  let digits := (Nat.repr decimal.digits).toList
  let x := decimal.exponent + digits.length - 1
  if decimal.digits = 0 then (if layout.point then "0.0" else "0")
  else if layout.plain x then layout.positional digits (x + 1)
  else scientific digits x

end Layout

/-- The text of a double; values that are no finite number are words. -/
def Double.render (layout : Layout) (d : Double) : String :=
  if d.isNaN then "NaN"
  else
    (if d.negative then "-" else "") ++
      (if d.isFinite then layout.magnitude (d.shortest layout.tie) else "inf")

end TreeLens

import TemplateLint.Number.Binary64

/-! # Shortest decimal text of a binary64 number

The digits are the fewest that read back as the same number; of those with the fewest digits the
nearest to the number, and of two equally near ones the even one. The layout is positional for
`10 ^ -5 ≤ x < 10 ^ 16` and scientific elsewhere.
-/

namespace TemplateLint.Number

/-- A positive decimal: `digits * 10 ^ exponent`. -/
structure Decimal where
  digits : Nat
  exponent : Int
deriving DecidableEq, Repr

namespace Magnitude

/-- The interval of the reals that round to a magnitude, as numerators over one denominator: its
lower end, the magnitude and its upper end. -/
def roundingInterval (m : Magnitude) : (Nat × Nat × Nat) × Nat :=
  let (up, down) := powerOfTwo (m.exponent - 2)
  let below := if m.significand = Nat.pow 2 52 ∧ leastExponent < m.exponent then 1 else 2
  (((4 * m.significand - below) * up, 4 * m.significand * up, (4 * m.significand + 2) * up), down)

/-- The `k` with `10 ^ (k - 1) ≤ numerator / denominator < 10 ^ k`, for a positive fraction. -/
def decimalOrder (numerator denominator : Nat) : Int :=
  if denominator ≤ numerator then (Nat.toDigits 10 (numerator / denominator)).length
  else
    match (List.range 400).find? fun j => denominator ≤ numerator * Nat.pow 10 j with
    | some j => 1 - (j : Int)
    | none => 0

/-- The decimal nearest to a positive magnitude among those with `count` digits that round to it. -/
def decimalWith? (m : Magnitude) (count : Nat) : Option Decimal :=
  let ((low, value, high), denominator) := m.roundingInterval
  let exponent := decimalOrder value denominator - count
  let scale : Nat := if 0 ≤ exponent then 1 else Nat.pow 10 (-exponent).toNat
  let step : Nat := denominator * (if 0 ≤ exponent then Nat.pow 10 exponent.toNat else 1)
  let inside (digits : Nat) : Bool :=
    if m.significand % 2 = 0 then low * scale ≤ digits * step && digits * step ≤ high * scale
    else low * scale < digits * step && digits * step < high * scale
  let floor := value * scale / step
  let twice := 2 * (value * scale % step)
  match inside floor, inside (floor + 1) with
  | false, false => none
  | true, false => some ⟨floor, exponent⟩
  | false, true => some ⟨floor + 1, exponent⟩
  | true, true =>
    if twice < step || (twice == step && floor % 2 == 0) then some ⟨floor, exponent⟩
    else some ⟨floor + 1, exponent⟩

/-- The shortest decimal of a positive magnitude; seventeen digits always suffice. -/
def shortest (m : Magnitude) : Decimal :=
  ((List.range 17).findSome? fun n => m.decimalWith? (n + 1)).getD ⟨m.significand, m.exponent⟩

end Magnitude

/-- How the digits of a number are laid out. -/
structure Layout where
  /-- Least position of the point, counted from the first digit, that is written positionally. -/
  leastPoint : Int
  /-- Greatest such position. -/
  greatestPoint : Int
  /-- Sign written before a nonnegative exponent. -/
  plus : String

/-- Positional from `0.00001` up to sixteen digits before the point; exponents carry a sign. -/
def Layout.json : Layout := ⟨-4, 16, "+"⟩

/-- A run of zeros. -/
def zeros (count : Nat) : String :=
  String.ofList (List.replicate count '0')

/-- A decimal in a layout. Trailing zeros of the digits are dropped first. -/
def Decimal.render (layout : Layout) (d : Decimal) : String :=
  let all := Nat.toDigits 10 d.digits
  let point : Int := all.length + d.exponent
  let digits := (all.reverse.dropWhile (· == '0')).reverse
  if layout.leastPoint ≤ point ∧ point ≤ layout.greatestPoint then
    if point ≤ 0 then "0." ++ zeros (-point).toNat ++ String.ofList digits
    else if digits.length ≤ point.toNat then
      String.ofList digits ++ zeros (point.toNat - digits.length) ++ ".0"
    else String.ofList (digits.take point.toNat) ++ "." ++ String.ofList (digits.drop point.toNat)
  else
    let fraction := digits.drop 1
    let exponent := point - 1
    String.ofList (digits.take 1) ++
      (if fraction.isEmpty then "" else "." ++ String.ofList fraction) ++
      "e" ++ (if 0 ≤ exponent then layout.plus else "-") ++ toString exponent.natAbs

/-- The text of a binary64 number. -/
def Binary64.render (layout : Layout) (x : Binary64) : String :=
  let text :=
    if x.magnitude.significand = 0 then "0.0" else x.magnitude.shortest.render layout
  if x.negative then "-" ++ text else text

end TemplateLint.Number

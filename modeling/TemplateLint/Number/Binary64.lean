/-! # Binary64 magnitudes

A finite binary64 magnitude is `significand * 2 ^ exponent`, in the one form that the format
stores: at least `2 ^ 52` in the significand unless the exponent is the least one. Rounding is to
nearest with ties to even, computed exactly on natural numbers.
-/

namespace TemplateLint.Number

/-- A nonnegative number `significand * 2 ^ exponent`. -/
structure Magnitude where
  significand : Nat
  exponent : Int
deriving DecidableEq, Repr, Inhabited

/-- A finite binary64 number; the sign of zero is kept. -/
structure Binary64 where
  negative : Bool
  magnitude : Magnitude
deriving DecidableEq, Repr, Inhabited

namespace Magnitude

/-- The least exponent of the format. -/
def leastExponent : Int := -1074

/-- The greatest exponent of the format. -/
def greatestExponent : Int := 971

/-- The magnitude zero. -/
def zero : Magnitude := ⟨0, leastExponent⟩

/-- A power of two with any integer exponent, as a fraction. -/
def powerOfTwo (exponent : Int) : Nat × Nat :=
  if 0 ≤ exponent then (Nat.pow 2 exponent.toNat, 1) else (1, Nat.pow 2 (-exponent).toNat)

/-- A quotient rounded to the nearest natural number, a half to the even neighbour. -/
def roundQuotient (numerator denominator : Nat) : Nat :=
  let quotient := numerator / denominator
  let twice := 2 * (numerator % denominator)
  if twice < denominator then quotient
  else if denominator < twice then quotient + 1
  else if quotient % 2 = 0 then quotient else quotient + 1

/-- The exponent with which a positive fraction has a significand of 53 bits, or the least one. -/
def fittingExponent (numerator denominator : Nat) : Int :=
  let low : Int := (Nat.log2 numerator : Int) - (Nat.log2 denominator : Int) - 53
  let (up, down) := powerOfTwo (low + 53)
  let exponent := if up * denominator ≤ numerator * down then low + 1 else low
  max exponent leastExponent

/-- The magnitude nearest to a fraction, or nothing beyond the greatest one. -/
def nearest? (numerator denominator : Nat) : Option Magnitude :=
  if numerator = 0 then some zero
  else
    let exponent := fittingExponent numerator denominator
    let (up, down) := powerOfTwo exponent
    let significand := roundQuotient (numerator * down) (denominator * up)
    let rounded : Magnitude :=
      if significand = Nat.pow 2 53 then ⟨Nat.pow 2 52, exponent + 1⟩ else ⟨significand, exponent⟩
    if greatestExponent < rounded.exponent then none else some rounded

/-- A magnitude as a fraction. -/
def toFraction (m : Magnitude) : Nat × Nat :=
  let (up, down) := powerOfTwo m.exponent
  (m.significand * up, down)

/-- The product of two magnitudes, rounded. -/
def mul? (a b : Magnitude) : Option Magnitude :=
  let (n, d) := a.toFraction
  let (n', d') := b.toFraction
  nearest? (n * n') (d * d')

/-- The quotient of two magnitudes, rounded; the divisor is not zero. -/
def div? (a b : Magnitude) : Option Magnitude :=
  let (n, d) := a.toFraction
  let (n', d') := b.toFraction
  nearest? (n * d') (d * n')

/-- The greatest power of ten that is a finite magnitude. -/
def greatestTenPower : Nat := 308

/-- The magnitude nearest to a power of ten. -/
def tenPower? (exponent : Nat) : Option Magnitude :=
  nearest? (Nat.pow 10 exponent) 1

/-- Scale a magnitude by a power of ten in steps that are each rounded: one multiplication, or
divisions by at most the greatest power of ten. -/
def scaleByTen? : Nat → Magnitude → Int → Option Magnitude
  | 0, _, _ => some zero
  | fuel + 1, m, exponent =>
    if exponent.natAbs ≤ greatestTenPower then do
      let power ← tenPower? exponent.natAbs
      if 0 ≤ exponent then m.mul? power else m.div? power
    else if m.significand = 0 then some m
    else if 0 ≤ exponent then none
    else do
      let power ← tenPower? greatestTenPower
      let smaller ← m.div? power
      scaleByTen? fuel smaller (exponent + greatestTenPower)

/-- The magnitude read for `significand * 10 ^ exponent`, or nothing when it is out of range. The
significand is rounded first and the scaling after it, so the result can be off the nearest one. -/
def ofDecimal? (significand : Nat) (exponent : Int) : Option Magnitude := do
  let start ← nearest? significand 1
  scaleByTen? (exponent.natAbs / greatestTenPower + 1) start exponent

end Magnitude

end TemplateLint.Number

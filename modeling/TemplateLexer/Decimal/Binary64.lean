/-! Binary floating-point numbers of 64 bits, and the one nearest to a decimal number. All of
it is exact arithmetic on natural numbers. -/

set_option autoImplicit false

namespace TemplateLexer

/-- The significand of a finite number is below two to the 53rd; the exponent is that of two. -/
inductive Binary64 where
  | finite (negative : Bool) (significand : Nat) (exponent : Int)
  | infinite (negative : Bool)
  | nan
  deriving DecidableEq, Repr

namespace Binary64

def leastExponent : Int := -1074

def greatestExponent : Int := 971

/-- A quotient rounded to the nearest whole number; a tie goes to the even one. -/
def roundQuotient (numerator denominator : Nat) : Nat :=
  let quotient := numerator / denominator
  let twice := 2 * (numerator % denominator)
  if twice < denominator then quotient
  else if denominator < twice then quotient + 1
  else quotient + quotient % 2

def unscale (base : Nat) (numerator denominator : Nat) (exponent : Int) : Nat × Nat :=
  if 0 ≤ exponent then (numerator, denominator * base.pow exponent.toNat)
  else (numerator * base.pow (-exponent).toNat, denominator)

def ofQuotient (negative : Bool) (numerator denominator : Nat) : Binary64 :=
  -- The quotient divided by two to this power lies between 2^51 and 2^53.
  let guess : Int := (numerator.log2 : Int) - denominator.log2 - 52
  let (scaled, unit) := unscale 2 numerator denominator guess
  let exponent := max leastExponent (if scaled / unit < Nat.pow 2 52 then guess - 1 else guess)
  let (scaled, unit) := unscale 2 numerator denominator exponent
  let rounded := roundQuotient scaled unit
  let (significand, exponent) :=
    if rounded = Nat.pow 2 53 then (Nat.pow 2 52, exponent + 1) else (rounded, exponent)
  if exponent > greatestExponent then .infinite negative
  else .finite negative significand exponent

/-- The number nearest to `digits` times ten to the exponent. Magnitudes far outside the range
are not computed with. -/
def ofDecimal (negative : Bool) (digits : Nat) (exponent : Int) : Binary64 :=
  let magnitude := (Nat.toDigits 10 digits).length + exponent
  if digits = 0 || magnitude < -330 then .finite negative 0 leastExponent
  else if magnitude > 310 then .infinite negative
  else
    let (numerator, denominator) := unscale 10 digits 1 (-exponent)
    ofQuotient negative numerator denominator

end Binary64

end TemplateLexer

import TemplateLexer.Decimal.Binary64
import TemplateLexer.Text.Number

/-! The shortest decimal text that reads back as the same binary number. -/

set_option autoImplicit false

namespace TemplateLexer

namespace Binary64

/-- The point of the grid of multiples of ten to `grid` that is nearest to the number, if one
of its two neighbours there reads back as the number. Numbers are compared in quarters of the
unit of the significand, so that the middles between neighbouring numbers are whole. -/
def onGrid? (significand : Nat) (exponent grid : Int) : Option Nat :=
  let value := 4 * significand
  let low := if significand = Nat.pow 2 52 && exponent > leastExponent then value - 1 else value - 2
  let high := value + 2
  let quarter := exponent - 2
  let step := Nat.pow 10 grid.toNat * Nat.pow 2 (-quarter).toNat
  let scale := Nat.pow 2 quarter.toNat * Nat.pow 10 (-grid).toNat
  let inside := fun point : Nat =>
    if significand % 2 = 0 then low * scale ≤ point * step && point * step ≤ high * scale
    else low * scale < point * step && point * step < high * scale
  let below := value * scale / step
  let above := below + 1
  let fromBelow := value * scale - below * step
  let fromAbove := above * step - value * scale
  match inside below, inside above with
  | true, true =>
    if fromBelow < fromAbove || (fromBelow = fromAbove && below % 2 = 0) then some below
    else some above
  | true, false => some below
  | false, true => some above
  | false, false => none

/-- The digits and the power of ten of the shortest decimal: the coarsest grid with a point
that reads back has it. -/
def shortest (significand : Nat) (exponent : Int) : Nat × Int :=
  ((List.range 660).findSome? fun coarser : Nat =>
    let grid : Int := 309 - (coarser : Int)
    (onGrid? significand exponent grid).map (·, grid)).getD (0, 0)

/-- Digits with the point after the first `point` of them. From 10^16 on and below 10^-4 an
exponent of at least two digits is written instead. -/
def layOut (digits : List Char) (point : Int) : List Char :=
  if point ≤ -4 || point > 16 then
    let exponent := point - 1
    let shown := Nat.toDigits 10 exponent.natAbs
    digits.take 1 ++ (if digits.length > 1 then '.' :: digits.drop 1 else []) ++
      ['e', if exponent < 0 then '-' else '+'] ++
      List.replicate (2 - shown.length) '0' ++ shown
  else if point ≤ 0 then
    "0.".toList ++ List.replicate (-point).toNat '0' ++ digits
  else
    let whole := digits.take point.toNat
    let part := digits.drop point.toNat
    whole ++ List.replicate (point.toNat - digits.length) '0' ++ ['.'] ++
      (if part.isEmpty then ['0'] else part)

def text : Binary64 → List Char
  | .nan => "nan".toList
  | .infinite negative => (if negative then ['-'] else []) ++ "inf".toList
  | .finite negative significand exponent =>
    let magnitude :=
      if significand = 0 then "0.0".toList
      else
        let (number, grid) := shortest significand exponent
        let digits := Nat.toDigits 10 number
        layOut digits (digits.length + grid)
    (if negative then ['-'] else []) ++ magnitude

end Binary64

end TemplateLexer

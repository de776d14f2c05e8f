import ModelSchemas.Decimal.Shortest

/-!
# Fixed decimal places

A floating number with a set number of decimal places: its exact value is rounded to the nearest
multiple of the last place, and a tie goes to the even multiple.
-/

namespace ModelSchemas

namespace Decimal

/-- The quotient of two whole numbers rounded to nearest, a tie to even. -/
def roundQuotient (numerator denominator : Nat) : Nat :=
  let quotient := numerator / denominator
  let twice := 2 * (numerator % denominator)
  if twice < denominator then quotient
  else if denominator < twice then quotient + 1
  else if quotient % 2 = 0 then quotient
  else quotient + 1

/-- A finite number with `places` digits after the decimal point. NaN and the infinities are
written as words. -/
def fixed (places : Nat) (x : Float) : Text :=
  let sign : Text := if isNegative x && !x.isNaN then ['-'] else []
  if x.isNaN then "nan"
  else if x.isInf then sign ++ "inf"
  else
    let (numerator, denominator) := (Binary.ofBits x.toBits).toFraction
    let ds := digits (roundQuotient (numerator * tenTo places) denominator)
    let ds := List.replicate (places + 1 - ds.length) '0' ++ ds
    sign ++ ds.take (ds.length - places) ++
      (if places = 0 then [] else '.' :: ds.drop (ds.length - places))

end Decimal

end ModelSchemas

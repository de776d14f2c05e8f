import ModelSchemas.Decimal.Digits

/-!
# Decimal literals

The floating number nearest to a decimal literal. A literal whose magnitude leaves the range of
floating numbers by far is infinite or zero without being computed.
-/

namespace ModelSchemas

namespace Decimal

/-- Positive infinity. -/
def infinity : Float := 1.0 / 0.0

/-- Not a number. -/
def notANumber : Float := 0.0 / 0.0

/-- The floating number nearest to `mantissa · 10 ^ exponent`. -/
def toFloat (mantissa : Nat) (exponent : Int) : Float :=
  if mantissa = 0 then 0.0
  else
    let magnitude : Int := (digits mantissa).length + exponent
    if 310 < magnitude then infinity
    else if magnitude < -330 then 0.0
    else if exponent < 0 then Float.ofScientific mantissa true exponent.natAbs
    else Float.ofScientific mantissa false exponent.natAbs

/-- The floating number that a sign, whole digits, digits after the point and an exponent
write. -/
def ofLiteral (negative : Bool) (whole fraction : Text) (exponent : Int) : Float :=
  let magnitude := toFloat (ofDigits 10 (whole ++ fraction)) (exponent - fraction.length)
  if negative then -magnitude else magnitude

end Decimal

end ModelSchemas

import ModelSchemas.Decimal.Digits

/-!
# Shortest decimal texts of floating numbers

A finite floating number is `m · 2 ^ q`. The decimals that read back as it fill an interval around
it; `shortest` finds one with the fewest digits, and of several the one nearest to the number.
`Layout` holds the decisions on how digits and exponent are laid out.
-/

namespace ModelSchemas

namespace Decimal

/-! ## Exact values -/

/-- A finite magnitude `m · 2 ^ q`. The value below lies at half distance when `narrowBelow`. -/
structure Binary where
  m : Nat
  q : Int
  narrowBelow : Bool
deriving DecidableEq, Repr

/-- The magnitude in the bits of a finite number. -/
def Binary.ofBits (bits : UInt64) : Binary :=
  let exponent := ((bits >>> 52) &&& 0x7FF).toNat
  let fraction := (bits &&& 0xFFFFFFFFFFFFF).toNat
  if exponent = 0 then ⟨fraction, -1074, false⟩
  else ⟨twoTo 52 + fraction, (exponent : Int) - 1075, fraction = 0 && 1 < exponent⟩

/-- The magnitude as a fraction of whole numbers. -/
def Binary.toFraction (b : Binary) : Nat × Nat :=
  (b.m * twoTo b.q.toNat, twoTo (-b.q).toNat)

/-- Whether the sign bit is set. -/
def isNegative (x : Float) : Bool := (x.toBits >>> 63) = 1

/-! ## Selecting digits -/

/-- Compares `a · 10 ^ i` with `n · 2 ^ j`. -/
def compareScaled (a : Nat) (i : Int) (n : Nat) (j : Int) : Ordering :=
  compare (a * tenTo i.toNat * twoTo (-j).toNat) (n * twoTo j.toNat * tenTo (-i).toNat)

/-- Whether `digits · 10 ^ exponent` lies among the reals that round to the number. Both ends
count when the number is even. -/
def Binary.readsBack (b : Binary) (digits : Nat) (exponent : Int) : Bool :=
  let low := if b.narrowBelow then 4 * b.m - 1 else 4 * b.m - 2
  let lower := compareScaled digits exponent low (b.q - 2)
  let upper := compareScaled digits exponent (4 * b.m + 2) (b.q - 2)
  let even := b.m % 2 = 0
  (lower = .gt || (even && lower = .eq)) && (upper = .lt || (even && upper = .eq))

/-- The least `k` from `start` on with the number below `10 ^ k`. -/
def Binary.scaleFrom (b : Binary) : Nat → Int → Int
  | 0, k => k
  | fuel + 1, k =>
    if compareScaled 1 k b.m b.q = .gt then k else b.scaleFrom fuel (k + 1)

/-- The least `k` with the number below `10 ^ k`. -/
def Binary.scale (b : Binary) : Int :=
  let log2 : Int := b.q + Nat.log2 b.m
  b.scaleFrom 8 (Int.fdiv (log2 * 30103) 100000 - 2)

/-- The largest whole multiple of `10 ^ exponent` that is not above the number. -/
def Binary.multiple (b : Binary) (exponent : Int) : Nat :=
  (b.m * twoTo b.q.toNat * tenTo (-exponent).toNat) /
    (twoTo (-b.q).toNat * tenTo exponent.toNat)

/-- Of the two multiples of `10 ^ exponent` next to the number, the one that reads back; of two
the nearer, of two equally near the even one. -/
def Binary.candidate? (b : Binary) (exponent : Int) : Option Nat :=
  let below := b.multiple exponent
  match b.readsBack below exponent, b.readsBack (below + 1) exponent with
  | false, false => none
  | true, false => some below
  | false, true => some (below + 1)
  | true, true =>
    match compareScaled (2 * below + 1) exponent (2 * b.m) b.q with
    | .gt => some below
    | .lt => some (below + 1)
    | .eq => some (if below % 2 = 0 then below else below + 1)

/-- The digits of a positive number and the exponent of the last of them: the first of the given
digit counts for which one reads back. -/
def Binary.select (b : Binary) (scale : Int) : List Nat → Nat × Int
  | [] => (b.multiple (scale - 17), scale - 17)
  | count :: more =>
    match b.candidate? (scale - count) with
    | some digits => (digits, scale - count)
    | none => b.select scale more

/-- The fewest digits of a positive number, without zeros at the end, and the place of the decimal
point counted from their start. -/
def Binary.shortest (b : Binary) : Text × Int :=
  let (number, exponent) := b.select b.scale ((List.range 17).map (· + 1))
  let ds := digits number
  ((ds.reverse.dropWhile (· = '0')).reverse, exponent + ds.length)

/-! ## Layout -/

/-- How digits and exponent are written: positionally while the decimal point stands between the
two limits, otherwise with an exponent of at least `exponentWidth` digits and its sign. -/
structure Layout where
  pointFrom : Int
  pointTo : Int
  exponentWidth : Nat
  nan : Text
  infinite : Text

/-- The digits with the decimal point after the first `point` of them. A number without a fraction
keeps one zero. -/
def positional (ds : Text) (point : Int) : Text :=
  if point ≤ 0 then "0." ++ List.replicate point.natAbs '0' ++ ds
  else if ds.length ≤ point.toNat then
    ds ++ List.replicate (point.toNat - ds.length) '0' ++ ".0"
  else ds.take point.toNat ++ '.' :: ds.drop point.toNat

/-- The digits with the decimal point after the first of them, and an exponent. -/
def scientific (layout : Layout) (ds : Text) (point : Int) : Text :=
  let exponent := point - 1
  let width := digits exponent.natAbs
  let mantissa := match ds with
    | [d] => [d]
    | d :: rest => d :: '.' :: rest
    | [] => []
  mantissa ++ 'e' :: (if exponent < 0 then '-' else '+') ::
    List.replicate (layout.exponentWidth - width.length) '0' ++ width

/-- The text of a floating number in a layout. -/
def Layout.render (layout : Layout) (x : Float) : Text :=
  if x.isNaN then layout.nan
  else
    let sign : Text := if isNegative x then ['-'] else []
    if x.isInf then sign ++ layout.infinite
    else
      let b := Binary.ofBits x.toBits
      if b.m = 0 then sign ++ "0.0"
      else
        let (ds, point) := b.shortest
        sign ++ (if layout.pointFrom ≤ point && point ≤ layout.pointTo then positional ds point
          else scientific layout ds point)

/-- Document values are shown positionally from `0.0001` to below `10 ^ 16`. -/
def documentLayout : Layout := ⟨-3, 16, 2, "nan", "inf"⟩

end Decimal

end ModelSchemas

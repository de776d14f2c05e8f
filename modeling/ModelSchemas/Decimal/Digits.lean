import ModelSchemas.Text.Basic

/-!
# Digits

Whole numbers as digit texts in bases two to sixteen, and back, and the grouping of decimal digits
by thousands. Readers of documents take decimal numbers up to a largest count of digits.
-/

namespace ModelSchemas

namespace Decimal

/-- The value of a digit in a base up to sixteen, in either case. -/
def digitValue? (base : Nat) (c : Char) : Option Nat :=
  let value :=
    if c.isDigit then c.toNat - '0'.toNat
    else if 'a' ≤ c && c ≤ 'f' then c.toNat - 'a'.toNat + 10
    else if 'A' ≤ c && c ≤ 'F' then c.toNat - 'A'.toNat + 10
    else base
  if value < base then some value else none

/-- The number that a text of digits writes. Characters that are no digits count as nothing. -/
def ofDigits (base : Nat) (digits : Text) : Nat :=
  digits.foldl (fun acc c => acc * base + (digitValue? base c).getD 0) 0

/-- The decimal digits of a number. -/
def digits (n : Nat) : Text := Nat.toDigits 10 n

/-- The lower-case hexadecimal digits of a number, with zeros in front up to `width`. -/
def hexDigits (width n : Nat) : Text :=
  let ds := Nat.toDigits 16 n
  List.replicate (width - ds.length) '0' ++ ds

/-- The powers of two. -/
def twoTo (exponent : Nat) : Nat := Nat.pow 2 exponent

/-- The powers of ten. -/
def tenTo (exponent : Nat) : Nat := Nat.pow 10 exponent

/-- A whole number in decimal, with a minus sign if it is negative. -/
def ofInt (n : Int) : Text :=
  if n < 0 then '-' :: digits n.natAbs else digits n.natAbs

/-- Puts a comma between groups of three, counted from the end of the digits. -/
def groupReversed : Text → Text
  | a :: b :: c :: d :: rest => a :: b :: c :: ',' :: groupReversed (d :: rest)
  | few => few

/-- A whole number in decimal with its thousands grouped by commas. -/
def grouped (n : Int) : Text :=
  let ds := (groupReversed (digits n.natAbs).reverse).reverse
  if n < 0 then '-' :: ds else ds

/-- The largest number of decimal digits of a whole number in a document. -/
def maxDigits : Nat := 4300

/-- The complaint about a whole number with more digits. -/
def tooManyDigitsMessage (count : Nat) : String :=
  s!"Exceeds the limit ({maxDigits} digits) for integer string conversion: value has " ++
    s!"{count} digits; use sys.set_int_max_str_digits() to increase the limit"

end Decimal

end ModelSchemas

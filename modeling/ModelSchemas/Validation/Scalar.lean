import ModelSchemas.Text.Blank
import ModelSchemas.Validation.Checked

/-!
# Checking scalars and lists

A decoder checks a document value for one type. Strings are taken as they are. Truth values may also
be the numbers zero and one and some words; bounded whole numbers may also be truth values, floating
numbers without a fraction, and decimal texts.
-/

namespace ModelSchemas

open Document

/-- Checks a document value and takes out what it stands for. -/
abbrev Decoder (α : Type) := Value → Checked α

namespace Decoder

variable {α : Type}

/-! ## Strings -/

/-- Any string. -/
def string : Decoder String
  | .str s => .accepted s
  | _ => .reject .notString

/-- A string with at least one character. -/
def nonEmptyString : Decoder String
  | .str s => if s = "" then .reject .emptyString else .accepted s
  | _ => .reject .notString

/-- Null, or what `decode` accepts. -/
def orNull (decode : Decoder α) : Decoder (Option α)
  | .null => .accepted none
  | v => (decode v).map some

/-! ## Truth values -/

/-- An ASCII text in lower case. -/
def lowerAscii (s : String) : String := String.ofList (s.toList.map Char.toLower)

/-- The words for true, in lower case. -/
def trueWords : List String := ["1", "t", "y", "on", "yes", "true"]

/-- The words for false, in lower case. -/
def falseWords : List String := ["0", "f", "n", "no", "off", "false"]

/-- Whether a whole number fits into 64 bits with a sign. -/
def fitsWord (n : Int) : Bool := -0x8000000000000000 ≤ n && n < 0x8000000000000000

/-- A truth value, zero or one, or one of the words for them in any case. -/
def bool : Decoder Bool
  | .bool b => .accepted b
  | .str s =>
    let word := lowerAscii s
    if trueWords.contains word then .accepted true
    else if falseWords.contains word then .accepted false
    else .reject .unreadableBool
  | .int n =>
    if n = 0 then .accepted false
    else if n = 1 then .accepted true
    else if fitsWord n then .reject .unreadableBool
    else .reject .notBool
  | .float x =>
    if x == 0.0 then .accepted false
    else if x == 1.0 then .accepted true
    else .reject .notBool
  | _ => .reject .notBool

/-! ## Whole numbers -/

/-- The digits without zeros in front, of which one stays if there is nothing else. Low lines among
those zeros count for nothing. -/
def withoutLeadingZeros (ds : Text) : Text :=
  if ds.head? = some '0' then
    match ds.dropWhile fun c => c = '0' || c = '_' with
    | [] => ds.drop (ds.length - 1)
    | rest => rest
  else ds

/-- Whether a text holds digits with at most one low line between two of them. -/
def isGrouped (ds : Text) : Bool :=
  (ds.all fun c => c.isDigit || c = '_') &&
    (('_' :: ds).zip (ds ++ ['_'])).all fun p => p.1 ≠ '_' || p.2 ≠ '_'

/-- The number that digits write, which low lines may group. -/
def groupedDigits? (t : Text) : Option Nat :=
  let ds := withoutLeadingZeros t
  if isGrouped ds then some (Decimal.ofDigits 10 (ds.filter (· ≠ '_'))) else none

/-- The text without a decimal point and zeros at its end. -/
def withoutZeroFraction (t : Text) : Text :=
  let zeros := t.reverse.takeWhile (· = '0')
  match t.reverse.dropWhile (· = '0') with
  | '.' :: rest => if zeros.isEmpty then t else rest.reverse
  | _ => t

/-- The whole number that a text writes: an optional sign, digits, and at most a fraction of
zeros. -/
def intOfText? (t : Text) : Option Int :=
  match t with
  | '-' :: rest => (groupedDigits? (withoutZeroFraction rest)).map fun n => -(n : Int)
  | '+' :: rest => (groupedDigits? (withoutZeroFraction rest)).map fun n => (n : Int)
  | _ => (groupedDigits? (withoutZeroFraction t)).map fun n => (n : Int)

/-- The most bytes of a whole number in a text. -/
def maxIntLength : Nat := 4300

/-- A whole number in any of its spellings. -/
def int : Decoder Int
  | .int n => .accepted n
  | .bool b => .accepted (if b then 1 else 0)
  | .float x =>
    if x.isNaN || x.isInf then .reject .notFinite
    else
      let (numerator, denominator) := (Decimal.Binary.ofBits x.toBits).toFraction
      if numerator % denominator = 0 then
        let magnitude : Int := (numerator / denominator : Nat)
        .accepted (if Decimal.isNegative x then -magnitude else magnitude)
      else .reject .fractionalInt
  | .str s =>
    let t := Text.trimWhiteSpace s.toList
    if maxIntLength < (String.ofList t).utf8ByteSize then .reject .overlongInt
    else match intOfText? t with
      | some n => .accepted n
      | none => .reject .unreadableInt
  | _ => .reject .notInt

/-- A whole number between two bounds. -/
def intBetween (low high : Int) : Decoder Int := fun v =>
  (int v).andThen fun n =>
    if n < low then .reject (.belowBound low)
    else if high < n then .reject (.aboveBound high)
    else .accepted n

/-! ## Lists -/

/-- Checks the items of a list, the first of which stands at `position`. -/
def itemsFrom (decode : Decoder α) (position : Nat) : List Value → Checked (List α)
  | [] => .accepted []
  | item :: items =>
    .and List.cons ((decode item).under (.index position)) (itemsFrom decode (position + 1) items)

/-- A list of items that `decode` accepts. -/
def list (decode : Decoder α) : Decoder (List α)
  | .list items => itemsFrom decode 0 items
  | _ => .reject .notList

/-- A list with at least one item. -/
def nonEmptyList (decode : Decoder α) : Decoder (List α) := fun v =>
  (list decode v).andThen fun items =>
    if items.isEmpty then .reject .emptyList else .accepted items

end Decoder

end ModelSchemas

import ModelSchemas.Decimal.Literal
import ModelSchemas.Document.Value
import ModelSchemas.Document.Yaml.Cursor

/-!
# Types of plain scalars

A plain scalar is null, a truth value or a number if it is spelled like one, and a string otherwise.
Numbers may hold underscores as filling, whole ones may be binary, octal or hexadecimal, and both
kinds may be written in base sixty with colons between the places. Times and dates are not among the
types of the subset that is read here: what is spelled like one is a string.
-/

namespace ModelSchemas

namespace Document

namespace Yaml

/-! ## Words -/

/-- The spellings of null. -/
def nullWords : List Text := ["", "~", "null", "Null", "NULL"]

/-- The spellings of true. -/
def trueWords : List Text := ["yes", "Yes", "YES", "true", "True", "TRUE", "on", "On", "ON"]

/-- The spellings of false. -/
def falseWords : List Text := ["no", "No", "NO", "false", "False", "FALSE", "off", "Off", "OFF"]

/-- The spellings of infinity, without its sign. -/
def infiniteWords : List Text := [".inf", ".Inf", ".INF"]

/-- The spellings of what is not a number. -/
def nanWords : List Text := [".nan", ".NaN", ".NAN"]

/-! ## Parts of numbers -/

/-- Whether a number has a minus sign, and the number without its sign. -/
def splitSign : Text → Bool × Text
  | '-' :: rest => (true, rest)
  | '+' :: rest => (false, rest)
  | rest => (false, rest)

/-- A decimal digit or an underscore between digits. -/
def isFilledDigit (c : Char) : Bool := c.isDigit || c = '_'

/-- The digits without the underscores between them. -/
def withoutFilling (t : Text) : Text := t.filter (· ≠ '_')

/-- Whether all characters are digits of a base or underscores. -/
def isFilledIn (base : Nat) (t : Text) : Bool :=
  t.all fun c => c = '_' || (Decimal.digitValue? base c).isSome

/-- A place after the first of a number in base sixty: one digit, or two that make less than
sixty. -/
def isSixtieth : Text → Bool
  | [d] => d.isDigit
  | [d, e] => '0' ≤ d && d ≤ '5' && e.isDigit
  | _ => false

/-! ## Whole numbers -/

/-- The number that some digits and underscores write in a base marked by a prefix. -/
def based (base : Nat) (t : Text) : Except Fault Int :=
  let ds := withoutFilling t
  if ds.isEmpty then .error (.noDigits base) else .ok (Decimal.ofDigits base ds)

/-- The number that some digits and underscores write in base ten. -/
def decimal (t : Text) : Except Fault Int :=
  let ds := withoutFilling t
  if Decimal.maxDigits < ds.length then .error (.tooManyDigits ds.length)
  else .ok (Decimal.ofDigits 10 ds)

/-- The number with some places in base sixty. -/
def ofPlaces (places : List Text) : Except Fault Int :=
  places.foldlM (fun acc place => do return acc * 60 + (← decimal place)) 0

/-- The value of a whole number without its sign, if it is spelled like one. -/
def magnitude? : Text → Option (Except Fault Int)
  | ['0'] => some (.ok 0)
  | '0' :: 'b' :: ds => if !ds.isEmpty && isFilledIn 2 ds then some (based 2 ds) else none
  | '0' :: 'x' :: ds => if !ds.isEmpty && isFilledIn 16 ds then some (based 16 ds) else none
  | '0' :: ds =>
    if isFilledIn 8 ds then some (.ok (Decimal.ofDigits 8 (withoutFilling ds))) else none
  | t =>
    match t.splitOn ':' with
    | first :: more =>
      if first.head?.any Char.isDigit && first.all isFilledDigit && more.all isSixtieth then
        some (ofPlaces (first :: more))
      else none
    | [] => none

/-- The value of a whole number, if the text is spelled like one. -/
def whole? (t : Text) : Option (Except Fault Int) :=
  let (negative, t) := splitSign t
  (magnitude? t).map fun n => n.map fun n => if negative then -n else n

/-! ## Floating numbers -/

/-- An exponent with its sign, or none. -/
def exponent? : Text → Option Int
  | [] => some 0
  | e :: sign :: ds =>
    let magnitude : Int := Decimal.ofDigits 10 ds
    if (e = 'e' || e = 'E') && !ds.isEmpty && ds.all Char.isDigit then
      if sign = '-' then some (-magnitude)
      else if sign = '+' then some magnitude
      else none
    else none
  | _ => none

/-- The number with some digits before the point and a fraction with its exponent after it. -/
def pointed? (whole fraction : Text) : Option Float :=
  let ds := fraction.takeWhile isFilledDigit
  (exponent? (fraction.drop ds.length)).map
    (Decimal.ofLiteral false (withoutFilling whole) (withoutFilling ds))

/-- The sum of places in base sixty, given from the last to the first. -/
def sumPlaces (places : List Float) : Float :=
  (places.foldl (fun (sum, weight) place => (sum + place * Float.ofNat weight, weight * 60))
    ((0.0 : Float), 1)).1

/-- The number in base sixty with a fraction after its last place. -/
def pointedPlaces? (whole fraction : Text) : Option Float :=
  match whole.splitOn ':' with
  | first :: place :: more =>
    let literal (fraction place : Text) : Float :=
      Decimal.ofLiteral false (withoutFilling place) (withoutFilling fraction) 0
    if first.all isFilledDigit && (place :: more).all isSixtieth && fraction.all isFilledDigit then
      match (first :: place :: more).reverse with
      | last :: others => some (sumPlaces (literal fraction last :: others.map (literal [])))
      | [] => none
    else none
  | _ => none

/-- The value of a floating number without its sign, if it is spelled like one. -/
def floatMagnitude? (t : Text) : Option Float :=
  if infiniteWords.contains t then some Decimal.infinity
  else
    let whole := t.takeWhile (· ≠ '.')
    match t.drop whole.length with
    | '.' :: fraction =>
      if whole.head?.any Char.isDigit then
        if whole.all isFilledDigit then pointed? whole fraction else pointedPlaces? whole fraction
      else none
    | _ => none

/-- The value of a floating number, if the text is spelled like one. A number that starts with its
point has no sign. -/
def float? (t : Text) : Option Float :=
  let (negative, unsigned) := splitSign t
  match floatMagnitude? unsigned, t with
  | some x, _ => some (if negative then -x else x)
  | none, '.' :: fraction =>
    if nanWords.contains t then some Decimal.notANumber
    else if fraction.head?.any Char.isDigit then pointed? [] fraction
    else none
  | none, _ => none

/-! ## All types -/

/-- The value that a plain scalar stands for. -/
def typed (t : Text) : Except Fault Value :=
  if nullWords.contains t then .ok .null
  else if trueWords.contains t then .ok (.bool true)
  else if falseWords.contains t then .ok (.bool false)
  else
    match float? t, whole? t with
    | some x, _ => .ok (.float x)
    | none, some n => n.map .int
    | none, none => .ok (.str (String.ofList t))

end Yaml

end Document

end ModelSchemas

import ModelSchemas.Decimal.Literal
import ModelSchemas.Document.Value

/-!
# Reading JSON

A reader for JSON texts that also accepts `NaN`, `Infinity` and `-Infinity`. Of a key that occurs
twice in an object the last value counts. A fault names what was expected and where, and
`Fault.message` gives the place as line, column and index, each counted in characters.
-/

namespace ModelSchemas

namespace Document

namespace Json

/-! ## Faults -/

/-- What is wrong with a text that is no JSON. -/
inductive Cause where
  | byteOrderMark
  | expectingValue
  | extraData
  | expectingKey
  | expectingColon
  | expectingComma
  | unterminatedString
  | controlCharacter
  | badEscape
  | badUnicodeEscape
deriving DecidableEq, Repr

/-- The wording of a cause. -/
def Cause.message : Cause → String
  | byteOrderMark => "Unexpected UTF-8 BOM (decode using utf-8-sig)"
  | expectingValue => "Expecting value"
  | extraData => "Extra data"
  | expectingKey => "Expecting property name enclosed in double quotes"
  | expectingColon => "Expecting ':' delimiter"
  | expectingComma => "Expecting ',' delimiter"
  | unterminatedString => "Unterminated string starting at"
  | controlCharacter => "Invalid control character at"
  | badEscape => "Invalid \\escape"
  | badUnicodeEscape => "Invalid \\uXXXX escape"

/-- Why a text could not be read: a fault of syntax at some index, or a whole number with more
digits than the reader takes. -/
inductive Fault where
  | syntaxFault (cause : Cause) (index : Nat)
  | tooManyDigits (count : Nat)
deriving DecidableEq, Repr

/-- The line of an index: one more than the line feeds before it. -/
def lineOf (text : Text) (index : Nat) : Nat := (text.take index).count '\n' + 1

/-- The column of an index: its distance from the last line feed before it, or from just before
the text. -/
def columnOf (text : Text) (index : Nat) : Nat :=
  ((text.take index).reverse.takeWhile (· ≠ '\n')).length + 1

/-- The wording of a fault in `text`. -/
def Fault.message (text : Text) : Fault → String
  | syntaxFault cause index =>
    s!"{cause.message}: line {lineOf text index} column {columnOf text index} (char {index})"
  | tooManyDigits count => Decimal.tooManyDigitsMessage count

/-! ## The rest of a text -/

/-- What is left to read, and its index in the whole text. -/
structure Rest where
  index : Nat
  text : Text

/-- The rest after `n` characters. -/
def Rest.advance (r : Rest) (n : Nat) : Rest := ⟨r.index + n, r.text.drop n⟩

/-- The separators between tokens. -/
def isSpace (c : Char) : Bool := c = ' ' || c = '\t' || c = '\n' || c = '\r'

/-- The rest without the separators at its start. -/
def Rest.skipSpace (r : Rest) : Rest := r.advance (r.text.takeWhile isSpace).length

/-- A syntax fault at the start of the rest. -/
def Rest.fail {α : Type} (r : Rest) (cause : Cause) : Except Fault α :=
  .error (.syntaxFault cause r.index)

/-! ## Strings -/

/-- The character that a one-letter escape stands for. -/
def simpleEscape? : Char → Option Char
  | '"' => some '"'
  | '\\' => some '\\'
  | '/' => some '/'
  | 'b' => some '\x08'
  | 'f' => some '\x0c'
  | 'n' => some '\n'
  | 'r' => some '\r'
  | 't' => some '\t'
  | _ => none

/-- The value of exactly four hexadecimal digits at the start of a text that goes on after
them. -/
def fourHex? (text : Text) : Option Nat :=
  match text with
  | a :: b :: c :: d :: _ :: _ => do
    let a ← Decimal.digitValue? 16 a
    let b ← Decimal.digitValue? 16 b
    let c ← Decimal.digitValue? 16 c
    let d ← Decimal.digitValue? 16 d
    return ((a * 16 + b) * 16 + c) * 16 + d
  | _ => none

/-- Whether a code unit is the first half of a pair. -/
def isHighSurrogate (n : Nat) : Bool := 0xD800 ≤ n && n ≤ 0xDBFF

/-- Whether a code unit is the second half of a pair. -/
def isLowSurrogate (n : Nat) : Bool := 0xDC00 ≤ n && n ≤ 0xDFFF

/-- The character of a code unit that is not paired. Half a pair alone has no character and reads
as the replacement character. -/
def charOfUnit (n : Nat) : Char :=
  if isHighSurrogate n || isLowSurrogate n then '\ufffd' else Char.ofNat n

/-- The character of a pair of code units. -/
def charOfPair (high low : Nat) : Char :=
  Char.ofNat (0x10000 + (high - 0xD800) * 0x400 + (low - 0xDC00))

/-- Reads the digits of a `\u` escape, and those of a second one directly after it if the two
make a pair. The result counts the characters read. -/
def unicodeEscape (index : Nat) (text : Text) : Except Fault (Char × Nat) :=
  match fourHex? text with
  | none => .error (.syntaxFault .badUnicodeEscape index)
  | some unit =>
    match isHighSurrogate unit, text.drop 4 with
    | true, '\\' :: 'u' :: more =>
      if more.length ≤ 4 then .ok (charOfUnit unit, 4)
      else match fourHex? more with
        | none => .error (.syntaxFault .badUnicodeEscape (index + 6))
        | some second =>
          if isLowSurrogate second then .ok (charOfPair unit second, 10)
          else .ok (charOfUnit unit, 4)
    | _, _ => .ok (charOfUnit unit, 4)

/-- Reads the rest of a string up to its closing quote. `start` is the index of the opening
quote, `fuel` bounds the characters. -/
def stringBody (start : Nat) : Nat → Text → Rest → Except Fault (Text × Rest)
  | 0, _, _ => .error (.syntaxFault .unterminatedString start)
  | fuel + 1, read, r =>
    match r.text with
    | [] => .error (.syntaxFault .unterminatedString start)
    | '"' :: _ => .ok (read.reverse, r.advance 1)
    | ['\\'] => .error (.syntaxFault .unterminatedString start)
    | '\\' :: 'u' :: more => do
      let (c, count) ← unicodeEscape (r.index + 1) more
      stringBody start fuel (c :: read) (r.advance (count + 2))
    | '\\' :: e :: _ =>
      match simpleEscape? e with
      | none => r.fail .badEscape
      | some c => stringBody start fuel (c :: read) (r.advance 2)
    | c :: _ =>
      if c.toNat < 0x20 then r.fail .controlCharacter
      else stringBody start fuel (c :: read) (r.advance 1)

/-- Reads a string whose opening quote is the next character. -/
def string (r : Rest) : Except Fault (String × Rest) := do
  let (chars, rest) ← stringBody r.index (r.text.length + 1) [] (r.advance 1)
  return (String.ofList chars, rest)

/-! ## Numbers -/

/-- The digits at the start of a text. -/
def leadingDigits (text : Text) : Text := text.takeWhile Char.isDigit

/-- The whole part of a number: one zero, or digits that do not start with a zero. -/
def wholePart (text : Text) : Text :=
  match text with
  | '0' :: _ => ['0']
  | _ => leadingDigits text

/-- The digits after a point, if a digit follows it. -/
def fractionPart (text : Text) : Text :=
  match text with
  | '.' :: rest => leadingDigits rest
  | _ => []

/-- An exponent: whether it is negative, its digits, and how many characters it takes. -/
def exponentPart? (text : Text) : Option (Bool × Text × Nat) :=
  let after (negative : Bool) (skipped : Nat) (rest : Text) : Option (Bool × Text × Nat) :=
    match leadingDigits rest with
    | [] => none
    | ds => some (negative, ds, skipped + ds.length)
  match text with
  | c :: rest =>
    if c = 'e' || c = 'E' then
      match rest with
      | '-' :: more => after true 2 more
      | '+' :: more => after false 2 more
      | more => after false 1 more
    else none
  | [] => none

/-- Reads a number: whole if it has neither a fraction nor an exponent. -/
def number (r : Rest) : Except Fault (Value × Rest) :=
  let negative := r.text.head? = some '-'
  let unsigned := if negative then r.text.drop 1 else r.text
  let signed := if negative then 1 else 0
  match wholePart unsigned with
  | [] => r.fail .expectingValue
  | whole =>
    let afterWhole := unsigned.drop whole.length
    let fraction := fractionPart afterWhole
    let fractionLength := if fraction.isEmpty then 0 else fraction.length + 1
    let afterFraction := afterWhole.drop fractionLength
    let length := signed + whole.length + fractionLength
    match exponentPart? afterFraction with
    | some (negativeExponent, ds, count) =>
      let magnitude : Int := Decimal.ofDigits 10 ds
      let exponent := if negativeExponent then -magnitude else magnitude
      .ok (.float (Decimal.ofLiteral negative whole fraction exponent), r.advance (length + count))
    | none =>
      if !fraction.isEmpty then
        .ok (.float (Decimal.ofLiteral negative whole fraction 0), r.advance length)
      else if Decimal.maxDigits < whole.length then .error (.tooManyDigits whole.length)
      else
        let magnitude : Int := Decimal.ofDigits 10 whole
        .ok (.int (if negative then -magnitude else magnitude), r.advance length)

/-! ## Values -/

/-- The words that stand for a value. -/
def keywords : List (Text × Value) :=
  [("null", .null), ("true", .bool true), ("false", .bool false),
   ("NaN", .float Decimal.notANumber), ("Infinity", .float Decimal.infinity),
   ("-Infinity", .float (-Decimal.infinity))]

/-- Reads a word or a number. -/
def scalar (r : Rest) : Except Fault (Value × Rest) :=
  match keywords.find? fun entry => entry.1.isPrefixOf r.text with
  | some (word, value) => .ok (value, r.advance word.length)
  | none => number r

mutual

/-- Reads one value. Every value and every item uses up fuel. -/
def value : Nat → Rest → Except Fault (Value × Rest)
  | 0, r => r.fail .expectingValue
  | fuel + 1, r =>
    match r.text with
    | [] => r.fail .expectingValue
    | '"' :: _ => do
      let (s, rest) ← string r
      return (.str s, rest)
    | '[' :: _ =>
      let inner := (r.advance 1).skipSpace
      match inner.text with
      | ']' :: _ => .ok (.list [], inner.advance 1)
      | _ => do
        let (items, rest) ← items fuel inner
        return (.list items, rest)
    | '\x7b' :: _ =>
      let inner := (r.advance 1).skipSpace
      match inner.text with
      | '\x7d' :: _ => .ok (.mapping [], inner.advance 1)
      | _ => do
        let (entries, rest) ← entries fuel [] inner
        return (.mapping entries, rest)
    | _ => scalar r

/-- Reads the items of an array up to its closing bracket. -/
def items : Nat → Rest → Except Fault (List Value × Rest)
  | 0, r => r.fail .expectingValue
  | fuel + 1, r => do
    let (item, rest) ← value fuel r
    let rest := rest.skipSpace
    match rest.text with
    | ']' :: _ => return ([item], rest.advance 1)
    | ',' :: _ => do
      let (more, rest) ← items fuel (rest.advance 1).skipSpace
      return (item :: more, rest)
    | _ => rest.fail .expectingComma

/-- Reads the entries of an object up to its closing brace, after those already read. -/
def entries : Nat → Entries → Rest → Except Fault (Entries × Rest)
  | 0, _, r => r.fail .expectingValue
  | fuel + 1, read, r =>
    match r.text with
    | '"' :: _ => do
      let (key, rest) ← string r
      let rest := rest.skipSpace
      match rest.text with
      | ':' :: _ => do
        let (item, rest) ← value fuel (rest.advance 1).skipSpace
        let rest := rest.skipSpace
        let read := Entries.set read key item
        match rest.text with
        | '\x7d' :: _ => return (read, rest.advance 1)
        | ',' :: _ => entries fuel read (rest.advance 1).skipSpace
        | _ => rest.fail .expectingComma
      | _ => rest.fail .expectingColon
    | _ => r.fail .expectingKey

end

/-- Reads a whole text as one JSON value. -/
def read (text : Text) : Except Fault Value := do
  if text.head? = some '\ufeff' then .error (.syntaxFault .byteOrderMark 0)
  let start := (Rest.mk 0 text).skipSpace
  let (result, rest) ← value (2 * text.length + 2) start
  let rest := rest.skipSpace
  if rest.text.isEmpty then return result
  else rest.fail .extraData

end Json

end Document

end ModelSchemas

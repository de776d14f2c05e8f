import ModelSchemas.Decimal.Shortest
import ModelSchemas.Document.Value

/-!
# Writing JSON

Strings are quoted in one of two alphabets: in ASCII, where every other character is written by the
numbers of its UTF-16 code units, or in full, where only quotes, backslashes and control characters
are escaped. Values are written on one line, or with one item a line and a set indentation.
-/

namespace ModelSchemas

namespace Document

namespace Json

/-! ## Strings -/

/-- The characters that stand for themselves in a quoted string. -/
inductive Alphabet where
  | ascii
  | full
deriving DecidableEq, Repr

/-- A code unit as an escape of four hexadecimal digits. -/
def unitEscape (unit : Nat) : Text := '\\' :: 'u' :: Decimal.hexDigits 4 unit

/-- The escapes of the code units of a character. -/
def numericEscape (c : Char) : Text :=
  let n := c.toNat
  if n < 0x10000 then unitEscape n
  else unitEscape (0xD800 + (n - 0x10000) / 0x400) ++ unitEscape (0xDC00 + (n - 0x10000) % 0x400)

/-- One character inside a quoted string. -/
def escapeChar (alphabet : Alphabet) (c : Char) : Text :=
  match c with
  | '"' => "\\\""
  | '\\' => "\\\\"
  | '\n' => "\\n"
  | '\r' => "\\r"
  | '\t' => "\\t"
  | '\x08' => "\\b"
  | '\x0c' => "\\f"
  | c =>
    if c.toNat < 0x20 then numericEscape c
    else if alphabet = .ascii && 0x7F ≤ c.toNat then numericEscape c
    else [c]

/-- A string in double quotes. -/
def quote (alphabet : Alphabet) (s : Text) : Text :=
  '"' :: s.flatMap (escapeChar alphabet) ++ ['"']

/-! ## Values -/

/-- How values are laid out: on one line, or one item a line with this indentation. -/
structure Format where
  alphabet : Alphabet
  indent : Option Nat

/-- The start of a line at some depth, or nothing on one line. -/
def Format.lineStart (format : Format) (depth : Nat) : Text :=
  match format.indent with
  | none => []
  | some width => '\n' :: List.replicate (width * depth) ' '

/-- What stands between two items. -/
def Format.separator (format : Format) (depth : Nat) : Text :=
  match format.indent with
  | none => ", "
  | some _ => ',' :: format.lineStart depth

/-- The floating numbers as JSON shows them. -/
def numberLayout : Decimal.Layout :=
  { Decimal.documentLayout with nan := "NaN", infinite := "Infinity" }

mutual

/-- The text of a value whose brackets stand at `depth`. -/
def write (format : Format) (depth : Nat) : Value → Text
  | .null => "null"
  | .bool b => if b then "true" else "false"
  | .int n => Decimal.ofInt n
  | .float x => numberLayout.render x
  | .str s => quote format.alphabet s.toList
  | .list [] => "[]"
  | .list (item :: items) =>
    '[' :: format.lineStart (depth + 1) ++
      List.intercalate (format.separator (depth + 1))
        (writeItems format (depth + 1) (item :: items)) ++
      format.lineStart depth ++ [']']
  | .mapping [] => "\x7b\x7d"
  | .mapping (entry :: entries) =>
    '\x7b' :: format.lineStart (depth + 1) ++
      List.intercalate (format.separator (depth + 1))
        (writeEntries format (depth + 1) (entry :: entries)) ++
      format.lineStart depth ++ ['\x7d']

/-- The texts of the items of a list. -/
def writeItems (format : Format) (depth : Nat) : List Value → List Text
  | [] => []
  | item :: items => write format depth item :: writeItems format depth items

/-- The texts of the entries of a mapping. -/
def writeEntries (format : Format) (depth : Nat) : List (String × Value) → List Text
  | [] => []
  | (key, item) :: entries =>
    (quote format.alphabet key.toList ++ ": " ++ write format depth item) ::
      writeEntries format depth entries

end

/-- A value as a whole text. -/
def render (format : Format) (value : Value) : String := String.ofList (write format 0 value)

end Json

end Document

end ModelSchemas

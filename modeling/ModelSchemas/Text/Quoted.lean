import ModelSchemas.Decimal.Digits
import ModelSchemas.Text.Printable

/-!
# Quoted text

Two ways to quote a text. A code literal stands in single quotes, with backslashes and single
quotes escaped by a backslash. A shown value stands in single quotes too, or in double quotes when
it holds a single quote and no double quote, and its unprintable characters are escaped by number.
-/

namespace ModelSchemas

namespace Text

/-! ## Code literals -/

/-- One character of a code literal. -/
def escapeLiteral (c : Char) : Text := if c = '\\' || c = '\'' then ['\\', c] else [c]

/-- A text as a literal in generated code. -/
def quoteLiteral (t : Text) : Text := '\'' :: t.flatMap escapeLiteral ++ ['\'']

/-! ## Shown values -/

/-- One character of a value shown between two `mark`s. -/
def escapeShown (mark c : Char) : Text :=
  if c = '\\' || c = mark then ['\\', c]
  else if c = '\n' then "\\n"
  else if c = '\r' then "\\r"
  else if c = '\t' then "\\t"
  else if isPrintable c then [c]
  else if c.toNat < 0x100 then "\\x" ++ Decimal.hexDigits 2 c.toNat
  else if c.toNat < 0x10000 then "\\u" ++ Decimal.hexDigits 4 c.toNat
  else "\\U" ++ Decimal.hexDigits 8 c.toNat

/-- A text as a message shows it. -/
def quoteShown (t : Text) : Text :=
  let mark := if t.contains '\'' && !t.contains '"' then '"' else '\''
  mark :: t.flatMap (escapeShown mark) ++ [mark]

end Text

end ModelSchemas

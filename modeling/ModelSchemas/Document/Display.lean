import ModelSchemas.Decimal.Shortest
import ModelSchemas.Document.Value
import ModelSchemas.Text.Quoted

/-!
# Shown values

Messages show the values they complain about on one line: texts quoted, lists in brackets, mappings
in braces with their keys in document order.
-/

namespace ModelSchemas

namespace Document

namespace Value

mutual

/-- The text that shows a value. -/
def display : Value → Text
  | null => "None"
  | bool b => if b then "True" else "False"
  | int n => Decimal.ofInt n
  | float x => Decimal.documentLayout.render x
  | str s => Text.quoteShown s.toList
  | list items => '[' :: List.intercalate [',', ' '] (displayItems items) ++ [']']
  | mapping entries => '\x7b' :: List.intercalate [',', ' '] (displayEntries entries) ++ ['\x7d']

/-- The texts that show the items of a list. -/
def displayItems : List Value → List Text
  | [] => []
  | item :: items => item.display :: displayItems items

/-- The texts that show the entries of a mapping. -/
def displayEntries : List (String × Value) → List Text
  | [] => []
  | (key, item) :: entries =>
    (Text.quoteShown key.toList ++ ": " ++ item.display) :: displayEntries entries

end

end Value

/-- A list of names as messages show it. -/
def displayNames (names : List String) : Text :=
  '[' :: List.intercalate [',', ' '] (names.map fun name => Text.quoteShown name.toList) ++ [']']

end Document

end ModelSchemas

/-!
# Text

Text that is taken apart is a list of characters, so that "what is left" is a value of its own.
This module holds the questions about such text that know nothing of character classes: whether a
piece occurs in it, and whether a character lies in ranges of code points.
-/

namespace ModelSchemas

/-- Text as the sequence of its characters. -/
abbrev Text := List Char

instance : Coe String Text := ⟨String.toList⟩

namespace Text

/-- Whether `piece` occurs somewhere in the text. -/
def occurs (piece : Text) : Text → Bool
  | [] => piece.isEmpty
  | c :: rest => piece.isPrefixOf (c :: rest) || occurs piece rest

theorem occurs_iff {piece t : Text} : occurs piece t ↔ piece <:+: t := by
  induction t with
  | nil => simp [occurs]
  | cons c rest ih => simp [occurs, ih, List.infix_cons_iff]

/-- Whether the code point of `c` lies in one of the closed ranges. -/
def inRanges (ranges : List (Nat × Nat)) (c : Char) : Bool :=
  ranges.any fun range => range.1 ≤ c.toNat && c.toNat ≤ range.2

end Text

end ModelSchemas

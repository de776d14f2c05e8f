import ModelSchemas.Text.Basic

/-!
# Blank characters, trimming and lines

Blanks are the characters with the Unicode property White_Space together with the four
information separators U+001C to U+001F. Trimming removes them at the ends of a text. A line ends
at one of ten boundary characters, all of them blank; a carriage return directly before a line
feed makes one boundary with it.
-/

namespace ModelSchemas

namespace Text

/-! ## Blanks -/

/-- The characters with the property White_Space, as ranges of code points. -/
def whiteSpaceRanges : List (Nat × Nat) :=
  [(0x09, 0x0D), (0x20, 0x20), (0x85, 0x85), (0xA0, 0xA0), (0x1680, 0x1680), (0x2000, 0x200A),
   (0x2028, 0x2029), (0x202F, 0x202F), (0x205F, 0x205F), (0x3000, 0x3000)]

/-- The information separators, as a range of code points. -/
def separatorRange : Nat × Nat := (0x1C, 0x1F)

/-- A blank carries no ink: it separates. -/
def isBlank (c : Char) : Bool := inRanges (separatorRange :: whiteSpaceRanges) c

/-- The blanks at the start of a text. -/
def leadingBlanks (t : Text) : Text := t.takeWhile isBlank

/-- The text without the blanks at its start. -/
def trimStart (t : Text) : Text := t.dropWhile isBlank

/-- The text without the blanks at its end. -/
def trimEnd (t : Text) : Text := (t.reverse.dropWhile isBlank).reverse

/-- The blanks at the end of a text. -/
def trailingBlanks (t : Text) : Text := (t.reverse.takeWhile isBlank).reverse

/-- The text without the blanks at either end. -/
def trim (t : Text) : Text := trimEnd (trimStart t)

/-- The text without white space in the narrow sense at either end; separators stay. -/
def trimWhiteSpace (t : Text) : Text :=
  ((t.dropWhile (inRanges whiteSpaceRanges)).reverse.dropWhile
    (inRanges whiteSpaceRanges)).reverse

/-- Whether the text holds nothing but blanks. -/
def allBlank (t : Text) : Bool := t.all isBlank

theorem length_dropWhile_le (p : Char → Bool) (t : Text) : (t.dropWhile p).length ≤ t.length := by
  induction t with
  | nil => simp
  | cons c t ih =>
    rw [List.dropWhile_cons]
    split
    · exact Nat.le_succ_of_le ih
    · exact Nat.le_refl _

theorem length_trimStart_le (t : Text) : (trimStart t).length ≤ t.length :=
  length_dropWhile_le isBlank t

theorem length_trimEnd_le (t : Text) : (trimEnd t).length ≤ t.length := by
  simpa [trimEnd] using length_dropWhile_le isBlank t.reverse

theorem length_trim_le (t : Text) : (trim t).length ≤ t.length :=
  Nat.le_trans (length_trimEnd_le _) (length_trimStart_le t)

/-- Trimming at the start only parts the text in two. -/
theorem leadingBlanks_append_trimStart (t : Text) : leadingBlanks t ++ trimStart t = t :=
  List.takeWhile_append_dropWhile

/-- Trimming at the end only parts the text in two. -/
theorem trimEnd_append_trailingBlanks (t : Text) : trimEnd t ++ trailingBlanks t = t := by
  rw [trimEnd, trailingBlanks, ← List.reverse_append, List.takeWhile_append_dropWhile,
    List.reverse_reverse]

/-! ## Lines -/

/-- The line boundaries, as ranges of code points. -/
def lineBreakRanges : List (Nat × Nat) :=
  [(0x0A, 0x0D), (0x1C, 0x1E), (0x85, 0x85), (0x2028, 0x2029)]

/-- A character that ends a line. -/
def isLineBreak (c : Char) : Bool := inRanges lineBreakRanges c

/-- The text up to its first line boundary. -/
def firstLine (t : Text) : Text := t.takeWhile fun c => !isLineBreak c

/-- The lines of a text without their boundaries. A boundary at the very end opens no further
line. -/
def lines : Text → List Text
  | [] => []
  | '\r' :: '\n' :: rest => [] :: lines rest
  | c :: rest =>
    if isLineBreak c then [] :: lines rest
    else match lines rest with
      | [] => [[c]]
      | line :: more => (c :: line) :: more

end Text

end ModelSchemas

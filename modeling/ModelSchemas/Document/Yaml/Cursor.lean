import ModelSchemas.Text.Basic

/-!
# Places in a YAML text

A cursor is what is left of a text together with the line and the column that it starts at. Lines
end at line feeds, next-line characters and the two Unicode separators; carriage returns have been
made line feeds before. `Fault` says why a text cannot be read.
-/

namespace ModelSchemas

namespace Document

namespace Yaml

/-! ## Faults -/

/-- Why a YAML text could not be read. -/
inductive Fault where
  /-- The text does not follow the grammar. -/
  | malformed
  /-- The text uses directives, tags, anchors or aliases, which the subset that is read leaves
  out. -/
  | unsupported
  /-- The value has no place in a document: a merge of something else than mappings, say. -/
  | misplaced
  /-- A prefix of a number base has no digits after it. -/
  | noDigits (base : Nat)
  | tooManyDigits (count : Nat)
  /-- An escape names a number beyond the last character. -/
  | noSuchCharacter
deriving DecidableEq, Repr

/-! ## Characters -/

/-- The characters that a YAML text may hold, as ranges of code points. -/
def allowedRanges : List (Nat × Nat) :=
  [(0x09, 0x0A), (0x0D, 0x0D), (0x20, 0x7E), (0x85, 0x85), (0xA0, 0xD7FF), (0xE000, 0xFFFD),
   (0x10000, 0x10FFFF)]

/-- A character that a YAML text may hold. -/
def isAllowed (c : Char) : Bool := Text.inRanges allowedRanges c

/-- A character that ends a line. -/
def isBreak (c : Char) : Bool := c = '\n' || c = '\x85' || c = '\u2028' || c = '\u2029'

/-- A space or a tab. -/
def isSpace (c : Char) : Bool := c = ' ' || c = '\t'

/-- Whether a word ends before this character, or before the end of the text. -/
def isBoundary : Option Char → Bool
  | none => true
  | some c => isSpace c || isBreak c

/-- The brackets and the comma that separate the parts of a flow collection. -/
def isFlowIndicator (c : Char) : Bool :=
  c = ',' || c = '[' || c = ']' || c = '\x7b' || c = '\x7d'

/-- The mark that may stand before a text to say how it is encoded. It takes no column. -/
def byteOrderMark : Char := '\ufeff'

/-! ## Cursors -/

/-- The rest of a text and where it starts. -/
structure Cursor where
  index : Nat
  line : Nat
  column : Nat
  text : Text

namespace Cursor

/-- The cursor before a whole text. -/
def start (text : Text) : Cursor := ⟨0, 0, 0, text⟩

/-- The next character. -/
def head? (c : Cursor) : Option Char := c.text.head?

/-- The cursor after the next character. -/
def next (c : Cursor) : Cursor :=
  match c.text with
  | [] => c
  | ch :: rest =>
    if isBreak ch then ⟨c.index + 1, c.line + 1, 0, rest⟩
    else ⟨c.index + 1, c.line, if ch = byteOrderMark then c.column else c.column + 1, rest⟩

/-- The cursor after some characters. -/
def advance : Nat → Cursor → Cursor
  | 0, c => c
  | n + 1, c => advance n c.next

/-- The cursor after the characters at its start that have a property. -/
def skipWhile (p : Char → Bool) (c : Cursor) : Cursor := advance (c.text.takeWhile p).length c

/-- The cursor after the spaces at its start. -/
def skipSpaces (c : Cursor) : Cursor := c.skipWhile (· = ' ')

/-- The cursor at the end of its line. -/
def skipLine (c : Cursor) : Cursor := c.skipWhile fun ch => !isBreak ch

/-- The cursor after a comment, if one starts here. -/
def skipComment (c : Cursor) : Cursor := if c.head? = some '#' then c.skipLine else c

/-- The line break at the cursor, and the cursor after it. A next-line character reads as a line
feed. -/
def lineBreak? (c : Cursor) : Option (Char × Cursor) :=
  match c.text with
  | [] => none
  | ch :: _ => if isBreak ch then some (if ch = '\x85' then '\n' else ch, c.next) else none

/-- Whether the line goes on with three copies of `mark` that stand alone. -/
def atMarker (mark : Char) (c : Cursor) : Bool :=
  [mark, mark, mark].isPrefixOf c.text && isBoundary c.text[3]?

/-- Whether a marker that separates documents stands here. -/
def atDocumentMarker (c : Cursor) : Bool := c.atMarker '-' || c.atMarker '.'

end Cursor

/-- What a line break becomes inside a scalar that goes on after it: a single line feed is a space,
and of several the first is left out. -/
def foldBreaks (first : Char) (more : Text) : Text :=
  if first ≠ '\n' then first :: more else if more.isEmpty then [' '] else more

end Yaml

end Document

end ModelSchemas

import ModelSchemas.Decimal.Digits
import ModelSchemas.Document.Yaml.Cursor

/-!
# Scalar texts of YAML

A scalar is written plain, between single or double quotes, or as a block of indented lines. Each
reader takes the cursor at the scalar and gives its text and the cursor after it.
-/

namespace ModelSchemas

namespace Document

namespace Yaml

/-! ## Quoted scalars -/

/-- The two quotes. -/
inductive Quote where
  | single
  | double
deriving DecidableEq, Repr

/-- The breaks of the empty lines inside a quoted scalar. A document may not end there. -/
def quotedBreaks : Nat → Cursor → Except Fault (Text × Cursor)
  | 0, _ => .error .malformed
  | fuel + 1, c =>
    if c.atDocumentMarker then .error .malformed
    else
      let c := c.skipWhile isSpace
      match c.lineBreak? with
      | none => .ok ([], c)
      | some (first, rest) => do
        let (more, rest) ← quotedBreaks fuel rest
        return (first :: more, rest)

/-- The spaces or the line breaks between two words of a quoted scalar. -/
def quotedGap (c : Cursor) : Except Fault (Text × Cursor) :=
  let after := c.skipWhile isSpace
  match after.lineBreak? with
  | none => .ok (c.text.takeWhile isSpace, after)
  | some (first, rest) => do
    let (more, rest) ← quotedBreaks (rest.text.length + 1) rest
    return (foldBreaks first more, rest)

/-- The character that a one-letter escape stands for. -/
def simpleEscape? : Char → Option Char
  | '0' => some '\x00'
  | 'a' => some '\x07'
  | 'b' => some '\x08'
  | 't' | '\t' => some '\t'
  | 'n' => some '\n'
  | 'v' => some '\x0b'
  | 'f' => some '\x0c'
  | 'r' => some '\r'
  | 'e' => some '\x1b'
  | ' ' => some ' '
  | '"' => some '"'
  | '\\' => some '\\'
  | '/' => some '/'
  | 'N' => some '\x85'
  | '_' => some '\xa0'
  | 'L' => some '\u2028'
  | 'P' => some '\u2029'
  | _ => none

/-- How many hexadecimal digits an escape takes. -/
def escapeLength? : Char → Option Nat
  | 'x' => some 2
  | 'u' => some 4
  | 'U' => some 8
  | _ => none

/-- The number that exactly `count` hexadecimal digits at the start of a text write. -/
def hexNumber? (count : Nat) (text : Text) : Option Nat :=
  let ds := text.take count
  if ds.length = count && ds.all (fun d => (Decimal.digitValue? 16 d).isSome) then
    some (Decimal.ofDigits 16 ds)
  else none

/-- The character with a number. Half a surrogate pair has none and reads as the replacement
character. -/
def character (n : Nat) : Except Fault Char :=
  if 0x110000 ≤ n then .error .noSuchCharacter
  else if 0xD800 ≤ n && n ≤ 0xDFFF then .ok '\ufffd'
  else .ok (Char.ofNat n)

/-- What an escape stands for; the cursor is after its backslash. -/
def escape (c : Cursor) : Except Fault (Text × Cursor) :=
  match c.lineBreak?, c.text with
  | some (_, rest), _ => quotedBreaks (rest.text.length + 1) rest
  | none, [] => .error .malformed
  | none, letter :: more =>
    match simpleEscape? letter, escapeLength? letter with
    | some ch, _ => .ok ([ch], c.next)
    | none, none => .error .malformed
    | none, some count =>
      match hexNumber? count more with
      | none => .error .malformed
      | some n => do
        let ch ← character n
        return ([ch], c.advance (count + 1))

/-- Reads a quoted scalar up to its closing quote. -/
def quotedBody (quote : Quote) : Nat → Cursor → Except Fault (Text × Cursor)
  | 0, _ => .error .malformed
  | fuel + 1, c =>
    let after (piece : Text) (rest : Cursor) : Except Fault (Text × Cursor) := do
      let (more, rest) ← quotedBody quote fuel rest
      return (piece ++ more, rest)
    match quote, c.text with
    | _, [] => .error .malformed
    | .single, '\'' :: '\'' :: _ => after ['\''] (c.advance 2)
    | .single, '\'' :: _ => .ok ([], c.next)
    | .double, '"' :: _ => .ok ([], c.next)
    | .double, '\\' :: _ => do
      let (piece, rest) ← escape c.next
      after piece rest
    | _, ch :: _ =>
      if isSpace ch || isBreak ch then do
        let (piece, rest) ← quotedGap c
        after piece rest
      else after [ch] c.next

/-- Reads a quoted scalar whose opening quote is the next character. -/
def quoted (quote : Quote) (c : Cursor) : Except Fault (Text × Cursor) :=
  quotedBody quote (c.text.length + 1) c.next

/-! ## Block scalars -/

/-- What becomes of the line breaks at the end of a block. -/
inductive Chomping where
  | strip
  | clip
  | keep
deriving DecidableEq, Repr

/-- The sign that asks for a chomping. -/
def chomping? (c : Cursor) : Option Chomping × Cursor :=
  match c.head? with
  | some '+' => (some .keep, c.next)
  | some '-' => (some .strip, c.next)
  | _ => (none, c)

/-- The digit that sets the indentation. -/
def increment? (c : Cursor) : Option Nat × Cursor :=
  match c.head? with
  | some d => if d.isDigit then (Decimal.digitValue? 10 d, c.next) else (none, c)
  | none => (none, c)

/-- Reads what may follow on the line that opens a block: a sign and a digit in either order, then
a comment. The indentation may not be zero. -/
def blockHeader (c : Cursor) : Except Fault (Chomping × Option Nat × Cursor) :=
  let (before, c) := chomping? c
  let (increment, c) := increment? c
  let (after, c) := if before.isSome then (none, c) else chomping? c
  let spaced := match c.head? with
    | none => true
    | some ch => ch = ' ' || isBreak ch
  let last := c.skipSpaces.skipComment
  if increment = some 0 || !spaced then .error .malformed
  else
    match last.lineBreak?, last.text with
    | some (_, rest), _ => .ok ((before.or after).getD .clip, increment, rest)
    | none, [] => .ok ((before.or after).getD .clip, increment, last)
    | none, _ => .error .malformed

/-- The empty lines at the start of a block whose indentation is not set, and the widest column
among the spaces before its first line. -/
def blockMargin : Nat → Nat → Cursor → Text × Nat × Cursor
  | 0, widest, c => ([], widest, c)
  | fuel + 1, widest, c =>
    match c.lineBreak? with
    | some (first, rest) =>
      let (more, widest, rest) := blockMargin fuel widest rest
      (first :: more, widest, rest)
    | none =>
      if c.head? = some ' ' then blockMargin fuel (max widest c.next.column) c.next
      else ([], widest, c)

/-- The cursor after spaces, up to a column. -/
def skipToColumn (column : Nat) (c : Cursor) : Cursor :=
  c.advance (min (column - c.column) (c.text.takeWhile (· = ' ')).length)

/-- The breaks of the empty lines in a block, and the cursor at the indentation of the line after
them. -/
def blockBreaks (indent : Nat) : Nat → Cursor → Text × Cursor
  | 0, c => ([], c)
  | fuel + 1, c =>
    let c := skipToColumn indent c
    match c.lineBreak? with
    | none => ([], c)
    | some (first, rest) =>
      let (more, rest) := blockBreaks indent fuel rest
      (first :: more, rest)

/-- The lines of a block: their text, the break of the last of them, the breaks after it, and the
cursor behind all. -/
structure BlockLines where
  text : Text
  lastBreak : Text
  trailing : Text
  rest : Cursor

/-- Whether a line of a block starts with a space or a tab, so that it is not folded. -/
def startsSpaced (c : Cursor) : Bool :=
  match c.head? with
  | some ch => isSpace ch
  | none => false

/-- Reads the lines of a block that stand at column `indent`. `breaks` are those of the empty lines
before. -/
def blockLines (folded : Bool) (indent : Nat) : Nat → Text → Cursor → BlockLines
  | 0, breaks, c => ⟨[], [], breaks, c⟩
  | fuel + 1, breaks, c =>
    if c.column ≠ indent || c.text.isEmpty then ⟨[], [], breaks, c⟩
    else
      let line := c.text.takeWhile fun ch => !isBreak ch
      let (lastBreak, rest) := match c.skipLine.lineBreak? with
        | some (first, rest) => (([first] : Text), rest)
        | none => ([], c.skipLine)
      let (more, rest) := blockBreaks indent (rest.text.length + 1) rest
      if rest.column = indent && !rest.text.isEmpty then
        let joint : Text :=
          if folded && lastBreak = ['\n'] && !startsSpaced c && !startsSpaced rest then
            if more.isEmpty then [' '] else []
          else lastBreak
        let following := blockLines folded indent fuel more rest
        { following with text := breaks ++ line ++ joint ++ following.text }
      else ⟨breaks ++ line, lastBreak, more, rest⟩

/-- Reads a block scalar whose opening character is the next one. `outer` is the least column its
lines may have. -/
def block (folded : Bool) (outer : Nat) (c : Cursor) : Except Fault (Text × Cursor) := do
  let (chomping, increment, c) ← blockHeader c.next
  let least := max outer 1
  let (breaks, indent, c) := match increment with
    | none =>
      let (breaks, widest, c) := blockMargin (c.text.length + 1) 0 c
      (breaks, max least widest, c)
    | some n =>
      let indent := least + n - 1
      let (breaks, c) := blockBreaks indent (c.text.length + 1) c
      (breaks, indent, c)
  let lines := blockLines folded indent (c.text.length + 1) breaks c
  let ending := match chomping with
    | .strip => []
    | .clip => lines.lastBreak
    | .keep => lines.lastBreak ++ lines.trailing
  return (lines.text ++ ending, lines.rest)

/-! ## Plain scalars -/

/-- Whether a plain scalar stops before a character, given the one after it. -/
def stopsPlain (inFlow : Bool) (c : Char) (after : Option Char) : Bool :=
  isBoundary (some c) ||
    (c = ':' && (isBoundary after || (inFlow && after.any isFlowIndicator))) ||
    (inFlow && (isFlowIndicator c || c = '?'))

/-- The characters of a plain scalar up to where it has to stop or may be spaced. -/
def plainRun (inFlow : Bool) : Text → Text
  | [] => []
  | c :: rest => if stopsPlain inFlow c rest.head? then [] else c :: plainRun inFlow rest

/-- The breaks of the empty lines inside a plain scalar, or nothing where a document ends. -/
def plainBreaks : Nat → Cursor → Option Text × Cursor
  | 0, c => (some [], c)
  | fuel + 1, c =>
    if c.atDocumentMarker then (none, c)
    else
      let c := c.skipSpaces
      match c.lineBreak? with
      | none => (some [], c)
      | some (first, rest) =>
        let (more, rest) := plainBreaks fuel rest
        (more.map (first :: ·), rest)

/-- What stands between two words of a plain scalar, whether the line ended there, and the cursor at
the second word. An empty gap ends the scalar. -/
def plainGap (c : Cursor) : Text × Bool × Cursor :=
  let after := c.skipSpaces
  match after.lineBreak? with
  | none => (c.text.takeWhile (· = ' '), false, after)
  | some (first, rest) =>
    let (more, rest) := plainBreaks (rest.text.length + 1) rest
    ((more.map (foldBreaks first)).getD [], true, rest)

/-- Reads the words of a plain scalar. `gap` is what stands before them, and counts only if a word
follows; `broken` is whether a line ended there. -/
def plainWords (inFlow : Bool) (indent : Nat) :
    Nat → Text → Bool → Cursor → Text × Bool × Cursor
  | 0, _, broken, c => ([], broken, c)
  | fuel + 1, gap, broken, c =>
    let run := plainRun inFlow c.text
    if c.head? = some '#' || run.isEmpty then ([], broken, c)
    else
      let (nextGap, broken, rest) := plainGap (c.advance run.length)
      if nextGap.isEmpty || rest.head? = some '#' || (!inFlow && rest.column < indent) then
        (gap ++ run, broken, rest)
      else
        let (more, broken, rest) := plainWords inFlow indent fuel nextGap broken rest
        (gap ++ run ++ more, broken, rest)

/-- Reads a plain scalar: its text, whether the cursor has come to a new line, and the cursor. In a
block its further lines stand at column `indent` at least. -/
def plain (inFlow : Bool) (indent : Nat) (c : Cursor) : Text × Bool × Cursor :=
  plainWords inFlow indent (c.text.length + 1) [] false c

end Yaml

end Document

end ModelSchemas

import ModelSchemas.Expression.Nesting
import ModelSchemas.Text.WordChar

/-!
# Top-level splitting

A text is cut at a separator wherever nothing is open: no quoted piece, no bracket and no generic
argument list. An angle bracket opens such a list only directly after a name, and `=>` never
closes one. A text that leaves anything open, or closes what it did not open, has no pieces.
-/

namespace ModelSchemas

namespace Expression

/-! ## The scanner -/

/-- A scanner at some point of a text: the nesting, the generic argument lists open outside all
brackets, and the character just passed. -/
structure Scanner where
  nesting : Nesting
  angles : Nat
  previous : Option Char
deriving DecidableEq, Repr

namespace Scanner

/-- The scanner at the start of a text. -/
def start : Scanner := ⟨.outside, 0, none⟩

/-- A name may end with `c`, so that an angle bracket after it opens generic arguments. -/
def endsName (c : Char) : Bool := Text.isLetterOrNumber c || c = '_' || c = '$'

/-- Whether `c` is met outside every bracket and quoted piece, and is itself neither. -/
def isBare (s : Scanner) (c : Char) : Bool := s.nesting.isOutside && isPlain c

/-- Whether `c` opens a generic argument list here. -/
def opensAngle (s : Scanner) (c : Char) : Bool :=
  s.isBare c && c = '<' && s.previous.any endsName

/-- Whether `c` closes a generic argument list here. -/
def closesAngle (s : Scanner) (c : Char) : Bool :=
  s.isBare c && c = '>' && 0 < s.angles && s.previous ≠ some '='

/-- Whether the text is cut here, at the separator `c`. -/
def cuts (separator : Char) (s : Scanner) (c : Char) : Bool :=
  s.isBare c && c = separator && s.angles = 0 && !s.opensAngle c

/-- The step over one character. -/
def step (s : Scanner) (c : Char) : Option Scanner :=
  (s.nesting.step c).map fun nesting =>
    { nesting
      angles :=
        if s.opensAngle c then s.angles + 1
        else if s.closesAngle c then s.angles - 1
        else s.angles
      previous := some c }

/-- Whether a text may end here. -/
def isDone (s : Scanner) : Bool := s.nesting.isOutside && s.angles = 0

end Scanner

/-! ## Pieces -/

/-- Puts a character in front of the first piece. -/
def consFirst (c : Char) : List Text → List Text
  | [] => [[c]]
  | piece :: more => (c :: piece) :: more

/-- The pieces of the rest of a text, from a scanner at its start. -/
def piecesFrom (separator : Char) (s : Scanner) : Text → Option (List Text)
  | [] => if s.isDone then some [[]] else none
  | c :: rest =>
    match s.step c with
    | none => none
    | some next =>
      (piecesFrom separator next rest).map
        (if s.cuts separator c then ([] :: ·) else consFirst c)

/-- The pieces of a text between the separators that stand outside quotes, brackets and generic
arguments, or nothing when the text is not balanced. -/
def splitTopLevel (separator : Char) (text : Text) : Option (List Text) :=
  piecesFrom separator .start text

/-- Two pieces joined by a separator are never fewer than one piece. -/
theorem piecesFrom_ne_nil {separator : Char} {s : Scanner} {text : Text} {parts : List Text}
    (h : piecesFrom separator s text = some parts) : parts ≠ [] := by
  cases text with
  | nil =>
    simp only [piecesFrom] at h
    split at h
    · cases h
      simp
    · cases h
  | cons c rest =>
    simp only [piecesFrom] at h
    split at h
    · cases h
    · simp only [Option.map_eq_some_iff] at h
      obtain ⟨tail, -, rfl⟩ := h
      split
      · simp
      · cases tail <;> simp [consFirst]

/-! ## Generic arguments -/

/-- How far into the text the generic argument lists open at its start all close. -/
def angleOffset (depth : Int) (previous : Option Char) : Text → Option Nat
  | [] => none
  | c :: rest =>
    if c = '<' then (angleOffset (depth + 1) (some c) rest).map (· + 1)
    else if c = '>' && previous ≠ some '=' then
      if depth = 1 then some 0 else (angleOffset (depth - 1) (some c) rest).map (· + 1)
    else (angleOffset depth (some c) rest).map (· + 1)

/-- The index of the angle bracket that closes the one at the start of the text. The second
character of `=>` does not count. -/
def matchingAngle (text : Text) : Option Nat := angleOffset 0 none text

end Expression

end ModelSchemas

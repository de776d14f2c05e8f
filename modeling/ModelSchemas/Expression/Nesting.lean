import ModelSchemas.Text.Basic

/-!
# Nesting

Expressions hold brackets and quoted pieces. `Nesting` is where a reader stands among them: in
code or inside a quoted piece, and which closing brackets are still owed. One character takes it
one step, or nowhere when a bracket closes what was never opened. Bracket matching and top-level
splitting both follow these steps.
-/

namespace ModelSchemas

namespace Expression

/-! ## Character roles -/

/-- The marks that open and close a quoted piece. -/
def isQuoteMark (c : Char) : Bool := c = '\'' || c = '"' || c = '`'

/-- The bracket that closes `c`, if `c` opens one. -/
def closerOf : Char → Option Char
  | '(' => some ')'
  | '[' => some ']'
  | '\x7b' => some '\x7d'
  | _ => none

/-- The closing brackets. -/
def isCloser (c : Char) : Bool := c = ')' || c = ']' || c = '\x7d'

/-- A character that is neither a quote mark nor a bracket. -/
def isPlain (c : Char) : Bool := !isQuoteMark c && (closerOf c).isNone && !isCloser c

/-! ## Steps -/

/-- In code, inside a piece quoted with `mark`, or there directly after a backslash. -/
inductive Mode where
  | code
  | quoted (mark : Char)
  | escaped (mark : Char)
deriving DecidableEq, Repr

/-- Where a reader stands: its mode and the closing brackets it owes, innermost first. -/
structure Nesting where
  mode : Mode
  owed : List Char
deriving DecidableEq, Repr

namespace Nesting

/-- Nothing is open. -/
def outside : Nesting := ⟨.code, []⟩

/-- Whether nothing is open. -/
def isOutside (n : Nesting) : Bool := n = outside

/-- The step over one character. A backslash in a quoted piece takes the next character with it;
in code it is a character like any other. -/
def step (n : Nesting) (c : Char) : Option Nesting :=
  match n.mode with
  | .escaped mark => some { n with mode := .quoted mark }
  | .quoted mark =>
    if c = '\\' then some { n with mode := .escaped mark }
    else if c = mark then some { n with mode := .code }
    else some n
  | .code =>
    if isQuoteMark c then some { n with mode := .quoted c }
    else match closerOf c with
      | some close => some { n with owed := close :: n.owed }
      | none =>
        if isCloser c then
          match n.owed with
          | [] => none
          | close :: owed => if close = c then some { n with owed := owed } else none
        else some n

/-- Whether the step from `n` to `next` closes the last bracket that was open. -/
def closes (n next : Nesting) : Bool := !n.owed.isEmpty && next.owed.isEmpty

/-- How far into the text the last open bracket closes. -/
def closeOffset (n : Nesting) : Text → Option Nat
  | [] => none
  | c :: rest =>
    match n.step c with
    | none => none
    | some next => if n.closes next then some 0 else (next.closeOffset rest).map (· + 1)

end Nesting

/-- The index of the bracket that closes the first one opened at or after `start`. -/
def matchingClose (text : Text) (start : Nat) : Option Nat :=
  (Nesting.outside.closeOffset (text.drop start)).map (· + start)

end Expression

end ModelSchemas

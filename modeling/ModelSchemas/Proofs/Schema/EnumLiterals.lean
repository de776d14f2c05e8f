import ModelSchemas.Proofs.Expression.CallText
import ModelSchemas.Proofs.Schema.EnumLine

/-!
# Reading the literals of an enumeration back

The values of an enumeration stand in its line as literals with commas between them. Whatever the
values hold, splitting at the commas cuts between the literals and nowhere else, since the scanner
passes over a literal as one quoted piece, and taking the quotes and the escapes away gives the
values back. So a line tells the values of its enumeration.
-/

namespace ModelSchemas

/-! ## Literals -/

namespace Text

/-- The text with each escaped backslash or quote mark in the place of its escape, from left to
right. -/
def unescapeLiteral : Text → Text
  | '\\' :: '\\' :: rest => '\\' :: unescapeLiteral rest
  | '\\' :: '\'' :: rest => '\'' :: unescapeLiteral rest
  | c :: rest => c :: unescapeLiteral rest
  | [] => []

/-- The text that a literal in single quotes stands for. -/
def unquoteLiteral? : Text → Option Text
  | '\'' :: rest => if rest.getLast? = some '\'' then some (unescapeLiteral rest.dropLast) else none
  | _ => none

theorem unescapeLiteral_cons {c : Char} (h : c ≠ '\\') (rest : Text) :
    unescapeLiteral (c :: rest) = c :: unescapeLiteral rest := by
  cases rest with
  | nil => simp [unescapeLiteral]
  | cons d rest => simp [unescapeLiteral, h]

theorem unescapeLiteral_flatMap_escapeLiteral (t : Text) :
    unescapeLiteral (t.flatMap escapeLiteral) = t := by
  induction t with
  | nil => rfl
  | cons c rest ih =>
    rw [List.flatMap_cons]
    by_cases hbackslash : c = '\\'
    · subst hbackslash
      exact congrArg (List.cons '\\') ih
    · by_cases hquote : c = '\''
      · subst hquote
        exact congrArg (List.cons '\'') ih
      · have hchar : escapeLiteral c = [c] := by simp [escapeLiteral, hbackslash, hquote]
        rw [hchar, List.singleton_append, unescapeLiteral_cons hbackslash, ih]

theorem unquoteLiteral?_quoteLiteral (t : Text) : unquoteLiteral? (quoteLiteral t) = some t := by
  have hlast : (t.flatMap escapeLiteral ++ ['\'']).getLast? = some '\'' := List.getLast?_concat
  show (if (t.flatMap escapeLiteral ++ ['\'']).getLast? = some '\'' then
    some (unescapeLiteral (t.flatMap escapeLiteral ++ ['\'']).dropLast) else none) = some t
  rw [if_pos hlast, List.dropLast_concat, unescapeLiteral_flatMap_escapeLiteral]

theorem hasInkAtEnds_quoteLiteral (t : Text) : (quoteLiteral t).HasInkAtEnds :=
  hasInkAtEnds_enclosed (by decide) (by decide) _

end Text

/-! ## Literals for the scanner -/

namespace Expression

open Scanner

variable (separator : Char)

/-- Inside a literal in single quotes. -/
def inLiteral : Nesting := ⟨.quoted '\'', []⟩

/-- An escaped character does not lead out of the literal. -/
theorem passes_escapeLiteral (c : Char) (angles : Nat) (previous : Option Char) :
    ∃ previous', Passes separator ⟨inLiteral, angles, previous⟩ (Text.escapeLiteral c)
      ⟨inLiteral, angles, previous'⟩ := by
  unfold Text.escapeLiteral
  split
  · have hbackslash : inLiteral.step '\\' = some ⟨.escaped '\'', []⟩ := rfl
    have hescaped : (⟨.escaped '\'', []⟩ : Nesting).step c = some inLiteral := rfl
    refine ⟨some c, .cons (cuts_of_not_isDone rfl _) (step_nested hbackslash rfl _ _) ?_⟩
    exact .cons (cuts_of_not_isDone rfl _) (step_nested hescaped rfl _ _) (.nil _)
  · rename_i hplain
    have hstep : inLiteral.step c = some inLiteral := by
      simp only [Bool.or_eq_true, decide_eq_true_eq, not_or] at hplain
      simp [inLiteral, Nesting.step, hplain]
    exact ⟨some c, .cons (cuts_of_not_isDone rfl _) (step_nested hstep rfl _ _) (.nil _)⟩

theorem passes_flatMap_escapeLiteral (t : Text) (angles : Nat) (previous : Option Char) :
    ∃ previous', Passes separator ⟨inLiteral, angles, previous⟩ (t.flatMap Text.escapeLiteral)
      ⟨inLiteral, angles, previous'⟩ := by
  induction t generalizing previous with
  | nil => exact ⟨previous, .nil _⟩
  | cons c rest ih =>
    obtain ⟨between, hchar⟩ := passes_escapeLiteral separator c angles previous
    obtain ⟨last, hrest⟩ := ih between
    rw [List.flatMap_cons]
    exact ⟨last, hchar.append hrest⟩

/-- Wherever the scanner is done, it passes over a literal and is done again. -/
theorem isPassable_quoteLiteral {separator : Char} (hsep : IsSeparator separator) (t : Text) :
    IsPassable separator (Text.quoteLiteral t) := by
  intro previous
  have hne : '\'' ≠ separator := by
    rintro rfl
    exact absurd hsep.isPlain (by decide)
  have hopen : (⟨.outside, 0, previous⟩ : Scanner).step '\'' =
      some ⟨inLiteral, 0, some '\''⟩ := rfl
  have hclose : inLiteral.step '\'' = some .outside := rfl
  obtain ⟨last, hinside⟩ := passes_flatMap_escapeLiteral separator t 0 (some '\'')
  refine ⟨some '\'', .cons (cuts_of_ne hne) hopen (hinside.append ?_)⟩
  exact .cons (cuts_of_ne hne) (step_nested hclose rfl _ _) (.nil _)

/-- The blanks between joined texts are trimmed away. -/
theorem map_trim_spacedRest (texts : List Text) :
    (spacedRest texts).map Text.trim = texts.map Text.trim := by
  have hspace : Text.allBlank [' '] := by decide
  cases texts with
  | nil => rfl
  | cons first rest =>
    rw [spacedRest, List.map_cons, List.map_cons, List.map_map]
    exact congrArg _ (List.map_congr_left fun t _ => Text.trim_append_of_allBlank hspace t)

end Expression

/-! ## Lines -/

namespace Schema

open Expression

/-- The literals of an enumeration. -/
def literals (values : List String) : List Text := values.map fun v => Text.quoteLiteral v.toList

theorem splitTopLevel_enumLiterals {values : List String} (h : values ≠ []) :
    splitTopLevel ',' (enumLiterals values).toList = some (spacedRest (literals values)) := by
  rw [LiteralState.toList_enumLiterals]
  refine splitTopLevel_spaced (by simpa using h) fun t ht => ?_
  obtain ⟨v, -, rfl⟩ := List.mem_map.mp ht
  exact (isPassable_quoteLiteral isSeparator_comma v.toList).isWhole

/-- Each piece gives a value when its blanks, its quotes and its escapes are taken away. -/
theorem map_unquoteLiteral?_spacedRest (values : List String) :
    (spacedRest (literals values)).map (fun piece => Text.unquoteLiteral? (Text.trim piece)) =
      values.map fun v => some v.toList := by
  have hliteral : ∀ v : String,
      Text.unquoteLiteral? (Text.trim (Text.quoteLiteral v.toList)) = some v.toList := by
    intro v
    rw [(Text.hasInkAtEnds_quoteLiteral v.toList).trim_eq_self, Text.unquoteLiteral?_quoteLiteral]
  calc (spacedRest (literals values)).map (fun piece => Text.unquoteLiteral? (Text.trim piece))
      = ((spacedRest (literals values)).map Text.trim).map Text.unquoteLiteral? := by
        rw [List.map_map]
        rfl
    _ = values.map fun v => Text.unquoteLiteral? (Text.trim (Text.quoteLiteral v.toList)) := by
        rw [map_trim_spacedRest, literals, List.map_map, List.map_map]
        rfl
    _ = values.map fun v => some v.toList := List.map_congr_left fun v _ => hliteral v

/-- Without literals there are no values. -/
theorem eq_nil_of_enumLiterals_eq {values : List String}
    (h : enumLiterals values = enumLiterals []) : values = [] := by
  cases values with
  | nil => rfl
  | cons first rest =>
    have hchars := congrArg String.toList h
    rw [LiteralState.toList_enumLiterals, LiteralState.toList_enumLiterals] at hchars
    exact absurd hchars (Text.intercalate_ne_nil _ (List.cons_ne_nil _ _) _)

theorem enumLiterals_inj {values others : List String}
    (h : enumLiterals values = enumLiterals others) : values = others := by
  by_cases hvalues : values = []
  · subst hvalues
    exact (eq_nil_of_enumLiterals_eq h.symm).symm
  · have hothers : others ≠ [] := by
      rintro rfl
      exact hvalues (eq_nil_of_enumLiterals_eq h)
    have hpieces : spacedRest (literals values) = spacedRest (literals others) := by
      refine Option.some.inj ?_
      rw [← splitTopLevel_enumLiterals hvalues, ← splitTopLevel_enumLiterals hothers, h]
    have hread := map_unquoteLiteral?_spacedRest values
    rw [hpieces, map_unquoteLiteral?_spacedRest others] at hread
    have hinj : Function.Injective fun v : String => some v.toList :=
      fun _ _ heq => String.toList_inj.mp (Option.some.inj heq)
    exact (List.map_injective_iff.mpr hinj hread).symm

theorem enumLiterals_eq_of_enumLine_eq {name : String} {values others : List String}
    (h : enumLine name values = enumLine name others) :
    enumLiterals values = enumLiterals others := by
  have hchars := congrArg String.toList h
  rw [toList_enumLine, toList_enumLine] at hchars
  replace hchars := List.append_cancel_left hchars
  replace hchars := List.append_cancel_left hchars
  replace hchars := List.append_cancel_left hchars
  exact String.toList_inj.mp (List.append_cancel_right hchars)

/-- **Literals read back.** In the line of an enumeration that has values, splitting the literals at
commas gives as many pieces as there are values, and each piece, trimmed, without its quotes and
with its escapes undone, is the value at its place, whatever the values hold. So lines of different
enumerations differ, and so do lines of one enumeration with different values. -/
theorem enum_literals_read_back (name : String) :
    (∀ values : List String, values ≠ [] →
      enumLine name values =
          "export const " ++ enumSchemaName name ++ " = z.enum([" ++ enumLiterals values ++
            "] as const);" ∧
        ∃ pieces, splitTopLevel ',' (enumLiterals values).toList = some pieces ∧
          pieces.length = values.length ∧
          pieces.map (fun piece => Text.unquoteLiteral? (Text.trim piece)) =
            values.map fun v => some v.toList) ∧
    ∀ (other : String) (values others : List String),
      enumLine name values = enumLine other others → name = other ∧ values = others := by
  constructor
  · intro values hne
    have hread := map_unquoteLiteral?_spacedRest values
    refine ⟨rfl, _, splitTopLevel_enumLiterals hne, ?_, hread⟩
    simpa using congrArg List.length hread
  · intro other values others h
    obtain rfl := name_eq_of_enumLine_eq h
    exact ⟨rfl, enumLiterals_inj (enumLiterals_eq_of_enumLine_eq h)⟩

/-- Values that hold quotes, commas, brackets and backslashes, one of them empty, read back. -/
theorem awkward_literals_read_back :
    let values := ["it's", "a, b", "", "\\", "\\\'", "Map<(", "]"]
    values ≠ [] ∧
      ∃ pieces, splitTopLevel ',' (enumLiterals values).toList = some pieces ∧
        pieces.length = 7 ∧
        pieces.map (fun piece => Text.unquoteLiteral? (Text.trim piece)) =
          values.map fun v => some v.toList := by
  intro values
  have hne : values ≠ [] := List.cons_ne_nil _ _
  obtain ⟨-, pieces, hsplit, hlength, hread⟩ := (enum_literals_read_back "Mark").1 values hne
  exact ⟨hne, pieces, hsplit, hlength, hread⟩

end Schema

end ModelSchemas

import Mathlib.Data.List.Basic
import ModelSchemas.Proofs.Text.Join
import ModelSchemas.Schema.Assembly

/-!
# Lines of enumerations

The line of an enumeration tells which enumeration it is for. The name in it is arbitrary text, so
the line alone does not show at once where the name ends; what does is that a list of literals has
brackets only inside its literals, while the text between name and literals ends with a bracket.
-/

namespace ModelSchemas

namespace Schema

/-! ## Reading literals -/

/-- Where a reader of a list of literals stands: in a literal or between two, and whether directly
after a backslash. -/
structure LiteralState where
  inside : Bool
  escaped : Bool
deriving DecidableEq, Repr

namespace LiteralState

/-- The step over one character. -/
def step (s : LiteralState) (c : Char) : LiteralState :=
  if s.escaped then ⟨s.inside, false⟩
  else if c = '\\' then ⟨s.inside, true⟩
  else if c = '\'' then ⟨!s.inside, false⟩
  else s

/-- Where the reader stands after a text. -/
def after (s : LiteralState) (t : Text) : LiteralState := t.foldl step s

/-- Between literals, where a list begins and ends. -/
def between : LiteralState := ⟨false, false⟩

/-- Every opening square bracket of the text is met inside a literal. -/
def EnclosesBrackets (s : LiteralState) : Text → Prop
  | [] => True
  | c :: rest => (c = '[' → s.inside = true) ∧ (s.step c).EnclosesBrackets rest

@[simp] theorem after_nil (s : LiteralState) : s.after [] = s := rfl

@[simp] theorem after_cons (s : LiteralState) (c : Char) (t : Text) :
    s.after (c :: t) = (s.step c).after t := rfl

theorem after_append (s : LiteralState) (t u : Text) : s.after (t ++ u) = (s.after t).after u :=
  List.foldl_append

theorem enclosesBrackets_append {s : LiteralState} {t u : Text} :
    s.EnclosesBrackets (t ++ u) ↔ s.EnclosesBrackets t ∧ (s.after t).EnclosesBrackets u := by
  induction t generalizing s with
  | nil => simp [EnclosesBrackets]
  | cons c t ih => simp [EnclosesBrackets, ih, and_assoc]

/-! ## Literals -/

/-- The content of a literal is read without leaving it. -/
theorem after_flatMap_escapeLiteral (b : Bool) (t : Text) :
    (⟨b, false⟩ : LiteralState).after (t.flatMap Text.escapeLiteral) = ⟨b, false⟩ := by
  induction t with
  | nil => rfl
  | cons c t ih =>
    rw [List.flatMap_cons, after_append]
    have hchar : (⟨b, false⟩ : LiteralState).after (Text.escapeLiteral c) = ⟨b, false⟩ := by
      unfold Text.escapeLiteral
      split
      · simp [step]
      · rename_i h
        simp only [Bool.or_eq_true, decide_eq_true_eq, not_or] at h
        simp [step, h]
    rw [hchar, ih]

theorem after_quoteLiteral (b : Bool) (t : Text) :
    (⟨b, false⟩ : LiteralState).after (Text.quoteLiteral t) = ⟨b, false⟩ := by
  rw [Text.quoteLiteral, List.cons_append, after_cons, after_append]
  show (((⟨!b, false⟩ : LiteralState).after _).after _) = _
  rw [after_flatMap_escapeLiteral]
  simp [step]

theorem enclosesBrackets_flatMap_escapeLiteral (t : Text) :
    (⟨true, false⟩ : LiteralState).EnclosesBrackets (t.flatMap Text.escapeLiteral) := by
  induction t with
  | nil => trivial
  | cons c t ih =>
    rw [List.flatMap_cons, enclosesBrackets_append]
    have hafter := after_flatMap_escapeLiteral true [c]
    rw [List.flatMap_singleton] at hafter
    rw [hafter]
    refine ⟨?_, ih⟩
    unfold Text.escapeLiteral
    split
    · simp [EnclosesBrackets, step]
    · simp [EnclosesBrackets]

theorem enclosesBrackets_quoteLiteral (t : Text) :
    between.EnclosesBrackets (Text.quoteLiteral t) := by
  rw [Text.quoteLiteral, List.cons_append]
  refine ⟨by simp, ?_⟩
  show (⟨true, false⟩ : LiteralState).EnclosesBrackets _
  rw [enclosesBrackets_append]
  exact ⟨enclosesBrackets_flatMap_escapeLiteral t, by simp [EnclosesBrackets]⟩

/-! ## Lists of literals -/

/-- The literals of some values as they stand in a line. -/
theorem toList_enumLiterals (values : List String) :
    (enumLiterals values).toList =
      List.intercalate [',', ' '] (values.map fun v => Text.quoteLiteral v.toList) := by
  rw [enumLiterals, String.toList_intercalate, List.map_map]
  simp [quoteSingle, Function.comp_def]

/-- A text that leads back to where it began, from inside a literal as from outside. -/
def IsLoop (t : Text) : Prop := ∀ b, (⟨b, false⟩ : LiteralState).after t = ⟨b, false⟩

theorem IsLoop.append {t u : Text} (ht : IsLoop t) (hu : IsLoop u) : IsLoop (t ++ u) := by
  intro b
  rw [after_append, ht b, hu b]

/-- A list of literals leads back to where it began. -/
theorem isLoop_enumLiterals (values : List String) : IsLoop (enumLiterals values).toList := by
  have hcomma : IsLoop [',', ' '] := fun b => by simp [step]
  rw [toList_enumLiterals]
  refine Text.intercalate_of_append (fun _ => rfl) IsLoop.append hcomma fun t ht => ?_
  obtain ⟨v, -, rfl⟩ := List.mem_map.mp ht
  exact fun b => after_quoteLiteral b v.toList

theorem enclosesBrackets_enumLiterals (values : List String) :
    between.EnclosesBrackets (enumLiterals values).toList := by
  rw [toList_enumLiterals]
  -- that a piece is a loop is carried along: the next one then starts between literals again
  have hjoined : IsLoop (List.intercalate [',', ' ']
        (values.map fun v => Text.quoteLiteral v.toList)) ∧
      between.EnclosesBrackets (List.intercalate [',', ' ']
        (values.map fun v => Text.quoteLiteral v.toList)) := by
    refine Text.intercalate_of_append (P := fun t => IsLoop t ∧ between.EnclosesBrackets t)
      ⟨fun _ => rfl, trivial⟩ ?_ ⟨fun b => by simp [step], by simp [EnclosesBrackets]⟩ ?_
    · rintro t u ⟨htloop, ht⟩ ⟨huloop, hu⟩
      refine ⟨htloop.append huloop, enclosesBrackets_append.mpr ⟨ht, ?_⟩⟩
      rw [between, htloop false]
      exact hu
    · intro t ht
      obtain ⟨v, -, rfl⟩ := List.mem_map.mp ht
      exact ⟨fun b => after_quoteLiteral b v.toList, enclosesBrackets_quoteLiteral v.toList⟩
  exact hjoined.2

/-- A list of literals never goes on behind a bracket as another one does from its start: the
bracket is inside a literal, so the rest has an odd number of quote marks. -/
theorem enumLiterals_ne_bracket_append (values more : List String) (t : Text) :
    (enumLiterals values).toList ≠ t ++ '[' :: (enumLiterals more).toList := by
  intro h
  have henclosed := enclosesBrackets_enumLiterals values
  have hend := isLoop_enumLiterals values false
  rw [h, enclosesBrackets_append] at henclosed
  have hinside : (between.after t).inside = true := henclosed.2.1 rfl
  have hbracket : (between.after t).step '[' = ⟨true, false⟩ := by
    unfold step
    split
    · simp [hinside]
    · rename_i hescaped
      cases hstate : between.after t with
      | mk inside escaped => simp_all
  rw [h, after_append, after_cons] at hend
  rw [show (⟨false, false⟩ : LiteralState) = between from rfl, hbracket,
    isLoop_enumLiterals more true] at hend
  cases hend

end LiteralState

/-! ## Lines -/

/-- The text between the name of an enumeration and its literals. -/
def enumLineMiddle : Text := "Schema = z.enum([".toList

theorem exists_enumLineMiddle : ∃ lead, enumLineMiddle = lead ++ ['['] :=
  ⟨enumLineMiddle.dropLast, by decide⟩

/-- The characters of a line, part by part. -/
theorem toList_enumLine (name : String) (values : List String) :
    (enumLine name values).toList =
      "export const ".toList ++ (name.toList ++ (enumLineMiddle ++
        ((enumLiterals values).toList ++ "] as const);".toList))) := by
  have hmiddle : enumLineMiddle = "Schema".toList ++ " = z.enum([".toList := by decide
  have hline : enumLine name values =
      "export const " ++ (name ++ "Schema") ++ " = z.enum([" ++ enumLiterals values ++
        "] as const);" := rfl
  rw [hmiddle, hline]
  simp only [String.toList_append, List.append_assoc]

/-- Two names in front of the same text differ by nothing if the text goes on with the literals of
the one behind the first and of the other behind the second. -/
theorem eq_nil_of_middle_append {more : Text} {values others : List String}
    (h : enumLineMiddle ++ (enumLiterals values).toList =
      more ++ (enumLineMiddle ++ (enumLiterals others).toList)) : more = [] := by
  rw [← List.append_assoc] at h
  rcases List.append_eq_append_iff.mp h with ⟨rest, hmiddle, hliterals⟩ | ⟨rest, hmiddle, -⟩
  · rcases List.eq_nil_or_concat rest with rfl | ⟨start, c, rfl⟩
    · have hlength := congrArg List.length hmiddle
      simp only [List.length_append, List.length_nil] at hlength
      exact List.eq_nil_of_length_eq_zero (by omega)
    · -- The shared text ends with a bracket, and so does what lies between the two starts.
      obtain ⟨lead, hlead⟩ := exists_enumLineMiddle
      rw [List.concat_eq_append] at hmiddle hliterals
      rw [hlead, ← List.append_assoc, ← List.append_assoc] at hmiddle
      have hc : ['['] = [c] := (List.append_inj' hmiddle rfl).2
      rw [← hc, List.append_assoc] at hliterals
      exact absurd hliterals (LiteralState.enumLiterals_ne_bracket_append _ _ _)
  · have hlength := congrArg List.length hmiddle
    simp only [List.length_append] at hlength
    exact List.eq_nil_of_length_eq_zero (by omega)

/-- **A line tells its enumeration**, whatever its name and its values are. -/
theorem name_eq_of_enumLine_eq {name other : String} {values others : List String}
    (h : enumLine name values = enumLine other others) : name = other := by
  have hchars := congrArg String.toList h
  rw [toList_enumLine, toList_enumLine] at hchars
  replace hchars := List.append_cancel_left hchars
  rw [← String.toList_inj]
  simp only [← List.append_assoc] at hchars
  replace hchars := List.append_cancel_right hchars
  rw [List.append_assoc, List.append_assoc] at hchars
  rcases List.append_eq_append_iff.mp hchars with ⟨more, hname, htail⟩ | ⟨more, hname, htail⟩
  · rw [hname, eq_nil_of_middle_append htail, List.append_nil]
  · rw [hname, eq_nil_of_middle_append htail, List.append_nil]

end Schema

end ModelSchemas

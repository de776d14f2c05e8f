import ModelSchemas.Proofs.Text.Trim

/-!
# Ink

The ink of a text is what its author wrote apart from blanks and commas, which come and go as lists
of arguments are read and written.
-/

namespace ModelSchemas

namespace Text

/-- The text without its blanks and commas. -/
def ink (t : Text) : Text := t.filter fun c => !isBlank c && c ≠ ','

@[simp] theorem ink_nil : ink [] = [] := rfl

@[simp] theorem ink_append (t u : Text) : ink (t ++ u) = ink t ++ ink u := List.filter_append t u

theorem ink_cons (c : Char) (t : Text) : ink (c :: t) = ink [c] ++ ink t := ink_append [c] t

theorem ink_of_allBlank {t : Text} (h : allBlank t) : ink t = [] := by
  refine List.filter_eq_nil_iff.mpr fun c hc => ?_
  have hblank : isBlank c := List.all_eq_true.mp h c hc
  simp [hblank]

@[simp] theorem ink_trim (t : Text) : ink (trim t) = ink t := by
  obtain ⟨before, after, hbefore, hafter, heq⟩ := exists_eq_trim_between t
  have hparts := congrArg ink heq
  rw [ink_append, ink_append, ink_of_allBlank hbefore, ink_of_allBlank hafter, List.nil_append,
    List.append_nil] at hparts
  exact hparts.symm

/-- The ink of joined texts is their ink, joined with the ink of what stands between. -/
theorem ink_intercalate (between : Text) (texts : List Text) :
    ink (List.intercalate between texts) = List.intercalate (ink between) (texts.map ink) := by
  induction texts with
  | nil => rfl
  | cons first rest ih =>
    cases rest with
    | nil => rw [List.map_singleton, List.intercalate_singleton, List.intercalate_singleton]
    | cons next rest =>
      rw [List.intercalate_cons_cons, ink_append, ink_append, ih]
      simp only [List.map_cons, List.intercalate_cons_cons]

/-- Between texts that are joined by commas and blanks there is no ink. -/
theorem ink_intercalate_of_ink_eq_nil {between : Text} (h : ink between = []) (texts : List Text) :
    ink (List.intercalate between texts) = texts.flatMap ink := by
  rw [ink_intercalate, h, List.flatMap]
  generalize texts.map ink = inks
  induction inks with
  | nil => rfl
  | cons first rest ih =>
    cases rest with
    | nil => simp
    | cons next rest =>
      rw [List.intercalate_cons_cons, List.append_nil, ih]
      rfl

/-- A blank text has no ink, and neither has anything that is left out with it. -/
theorem flatMap_ink_filter (texts : List Text) :
    (texts.filter fun t => !allBlank t).flatMap ink = texts.flatMap ink := by
  induction texts with
  | nil => rfl
  | cons first rest ih =>
    cases hblank : allBlank first with
    | true =>
      rw [List.filter_cons_of_neg (by simp [hblank]), ih, List.flatMap_cons, ink_of_allBlank hblank,
        List.nil_append]
    | false =>
      rw [List.filter_cons_of_pos (by simp [hblank]), List.flatMap_cons, List.flatMap_cons, ih]

end Text

end ModelSchemas

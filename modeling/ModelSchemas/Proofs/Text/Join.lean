import ModelSchemas.Text.Basic

/-!
# Joined text

Texts joined with something between them: a property that appending keeps holds of the whole when
it holds of the parts.
-/

namespace ModelSchemas

namespace Text

/-- What holds of the texts and of what stands between them holds of the joined text. -/
theorem intercalate_of_append {P : Text → Prop} (hnil : P [])
    (happend : ∀ {t u : Text}, P t → P u → P (t ++ u)) {between : Text} (hbetween : P between)
    {texts : List Text} (h : ∀ t ∈ texts, P t) : P (List.intercalate between texts) := by
  induction texts with
  | nil => exact hnil
  | cons first rest ih =>
    have hfirst := h first List.mem_cons_self
    cases rest with
    | nil =>
      rw [List.intercalate_singleton]
      exact hfirst
    | cons next rest =>
      rw [List.intercalate_cons_cons]
      exact happend (happend hfirst hbetween) (ih fun t ht => h t (List.mem_cons_of_mem first ht))

/-- A character in front of the first text stands in front of the joined text. -/
theorem intercalate_cons_first (between : Text) (c : Char) (first : Text) (rest : List Text) :
    List.intercalate between ((c :: first) :: rest) =
      c :: List.intercalate between (first :: rest) := by
  cases rest with
  | nil => rw [List.intercalate_singleton, List.intercalate_singleton]
  | cons next rest =>
    rw [List.intercalate_cons_cons, List.intercalate_cons_cons]
    rfl

theorem intercalate_ne_nil (between : Text) {first : Text} (h : first ≠ []) (rest : List Text) :
    List.intercalate between (first :: rest) ≠ [] := by
  obtain ⟨c, first, rfl⟩ := List.exists_cons_of_ne_nil h
  rw [intercalate_cons_first]
  exact List.cons_ne_nil _ _

/-- An empty first text leaves what stands between in front. -/
theorem intercalate_nil_first (between : Text) {texts : List Text} (h : texts ≠ []) :
    List.intercalate between ([] :: texts) = between ++ List.intercalate between texts := by
  obtain ⟨first, rest, rfl⟩ := List.exists_cons_of_ne_nil h
  rw [List.intercalate_cons_cons, List.nil_append]

/-- Two lists of texts are joined like two texts. -/
theorem intercalate_append (between : Text) {texts more : List Text} (h : texts ≠ [])
    (hmore : more ≠ []) :
    List.intercalate between (texts ++ more) =
      List.intercalate between texts ++ between ++ List.intercalate between more := by
  induction texts with
  | nil => exact absurd rfl h
  | cons first rest ih =>
    by_cases hrest : rest = []
    · subst hrest
      rw [List.singleton_append, List.intercalate_cons_of_ne_nil hmore, List.intercalate_singleton]
    · rw [List.cons_append, List.intercalate_cons_of_ne_nil (by simp [hrest]), ih hrest,
        List.intercalate_cons_of_ne_nil hrest]
      simp

/-- What is behind the last text is behind the joined text. -/
theorem intercalate_concat_append (between : Text) (texts : List Text) (last more : Text) :
    List.intercalate between (texts ++ [last ++ more]) =
      List.intercalate between (texts ++ [last]) ++ more := by
  by_cases htexts : texts = []
  · simp [htexts]
  · rw [intercalate_append between htexts (by simp), intercalate_append between htexts (by simp)]
    simp

end Text

end ModelSchemas

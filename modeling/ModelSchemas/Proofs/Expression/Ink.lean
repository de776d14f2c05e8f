import ModelSchemas.Proofs.Expression.Cutting
import ModelSchemas.Proofs.Expression.RoundTrip
import ModelSchemas.Proofs.Text.Ink

/-!
# Ink through reading

Reading a text and writing the tree keeps the ink: what a call is read from, its outline and its
tree all have the same ink, whether or not the text can be read back.
-/

namespace ModelSchemas

namespace Expression

open Text

/-! ## Calls -/

@[simp] theorem ink_comma_blank : ink [',', ' '] = [] := by decide

/-- The ink of an argument list is that of its arguments in parentheses. -/
theorem ink_argumentList (texts : Option (List Text)) :
    ink (argumentList texts) =
      match texts with
      | none => []
      | some ts => '(' :: ts.flatMap ink ++ [')'] := by
  cases texts with
  | none => rfl
  | some ts =>
    rw [argumentList, ink_append, ink_cons, ink_intercalate_of_ink_eq_nil ink_comma_blank]
    rfl

/-- Arguments with the same ink make calls with the same ink. -/
theorem ink_callText_congr {texts texts' : Option (List Text)}
    (h : texts.map (List.flatMap ink) = texts'.map (List.flatMap ink)) (name : Text)
    (typeArgs : Option Text) :
    ink (callText name typeArgs texts) = ink (callText name typeArgs texts') := by
  have hlist : ink (argumentList texts) = ink (argumentList texts') := by
    rw [ink_argumentList, ink_argumentList]
    cases texts with
    | none =>
      cases texts' with
      | none => rfl
      | some ts' => cases h
    | some ts =>
      cases texts' with
      | none => cases h
      | some ts' => simp only [Option.some.inj h]
  simp only [callText, ink_append, hlist]

namespace CallText

/-- The text that a call was read from, up to blanks. -/
def text (c : CallText) : Text := callText c.name c.typeArgs (c.argText.map fun t => [t])

theorem argumentList_of_readArguments {name rest : Text} {typeArgs : Option Text} {c : CallText}
    (h : readArguments name typeArgs rest = some c) :
    argumentList (c.argText.map fun t => [t]) = rest := by
  unfold readArguments at h
  split at h
  · cases h
    rfl
  · rename_i inner
    split_ifs at h with hclose
    cases h
    have hinner := eq_concat_of_matchingClose rfl hclose
    rw [Option.map_some, argumentList, List.intercalate_singleton, List.cons_append, ← hinner]
  · cases h

theorem ink_of_readAfterName {name rest : Text} {c : CallText}
    (h : readAfterName name rest = some c) :
    ink (renderTypeArgs c.typeArgs ++ argumentList (c.argText.map fun t => [t])) = ink rest := by
  unfold readAfterName at h
  split at h
  · rename_i tail
    split at h
    · cases h
    · rename_i close hclose
      have hrest := eq_of_matchingAngle hclose
      rw [argumentList_of_readArguments h, (readArguments_eq_some h).2.1]
      generalize (('<' :: tail).take close).drop 1 = inside at hrest ⊢
      generalize ('<' :: tail).drop (close + 1) = behind at hrest ⊢
      rw [hrest]
      -- the generic arguments are trimmed, and so is what stands behind them
      show ink (['<'] ++ trim inside ++ ['>'] ++ trim behind) =
        ink (['<'] ++ (inside ++ (['>'] ++ behind)))
      simp only [ink_append, ink_trim, List.append_assoc]
  · rw [argumentList_of_readArguments h, (readArguments_eq_some h).2.1]
    rfl

theorem ink_text {segment : Text} {c : CallText} (h : read? segment = some c) :
    ink c.text = ink segment := by
  unfold read? at h
  split at h
  · cases h
  · rename_i first rest
    split_ifs at h
    rw [text, callText, ink_append, ink_of_readAfterName h, (readAfterName_eq_some h).1, ink_trim,
      ← ink_append, List.cons_append, List.takeWhile_append_dropWhile]

end CallText

/-! ## Outlines -/

namespace CallOutline

/-- The text that a call was read from, up to blanks and commas. -/
def text (c : CallOutline) : Text := callText c.name c.typeArgs c.args

theorem flatMap_ink_argumentTexts {t : Text} {texts : List Text}
    (h : argumentTexts t = some texts) : texts.flatMap ink = ink t := by
  obtain ⟨pieces, hpieces, rfl⟩ := Option.map_eq_some_iff.mp h
  have hcomma : ink [','] = [] := by decide
  rw [flatMap_ink_filter, ← ink_intercalate_of_ink_eq_nil hcomma,
    intercalate_splitTopLevel hpieces]

theorem ink_text {segment : Text} {c : CallOutline} (h : read? segment = some c) :
    ink c.text = ink segment := by
  unfold read? at h
  split at h
  · cases h
  · rename_i hread
    cases h
    exact CallText.ink_text hread
  · rename_i name typeArgs argText hread
    obtain ⟨texts, htexts, rfl⟩ := Option.map_eq_some_iff.mp h
    rw [← CallText.ink_text hread]
    refine ink_callText_congr ?_ name typeArgs
    rw [Option.map_some, Option.map_some, Option.map_some, flatMap_ink_argumentTexts htexts,
      List.flatMap_singleton]

/-- The ink of the tree of a call, if reading its arguments keeps their ink. -/
theorem ink_toCall {c : CallOutline} {read : Text → Node}
    (h : ∀ texts, c.args = some texts → ∀ t ∈ texts, ink (read t).render = ink t) :
    ink (c.toCall read).render = ink c.text := by
  have htypeArgs : (c.toCall read).typeArgs = c.typeArgs := by
    unfold toCall
    split <;> rfl
  rw [Call.render_eq_callText, name_toCall, htypeArgs, Call.argTexts, args?_toCall]
  refine ink_callText_congr ?_ c.name c.typeArgs
  cases hargs : c.args with
  | none => rfl
  | some texts =>
    refine congrArg some ?_
    rw [List.map_map, List.flatMap_map]
    exact List.flatMap_congr fun t ht => h texts hargs t ht

end CallOutline

namespace Outline

/-- The text that a chain was read from, up to blanks and commas. -/
def text (o : Outline) : Text :=
  (if o.leadingDot then ['.'] else []) ++ List.intercalate ['.'] (o.calls.map CallOutline.text)

theorem ink_intercalate_text {segments : List Text} {calls : List CallOutline}
    (h : (segments.mapM fun segment => CallOutline.read? (trim segment)) = some calls) :
    ink (List.intercalate ['.'] (calls.map CallOutline.text)) =
      ink (List.intercalate ['.'] segments) := by
  have hinks : (calls.map CallOutline.text).map ink = segments.map ink := by
    have hrel := mapM_eq_some_iff.mp h
    clear h
    induction hrel with
    | nil => rfl
    | cons hread _ ih =>
      rw [List.map_cons, List.map_cons, List.map_cons, ih, CallOutline.ink_text hread, ink_trim]
  rw [ink_intercalate, ink_intercalate, hinks]

theorem ink_text_ofSegments {segments : List Text} {o : Outline}
    (h : ofSegments segments = some o) : ink o.text = ink (List.intercalate ['.'] segments) := by
  cases segments with
  | nil => cases h
  | cons first rest =>
    cases hblank : allBlank first with
    | true =>
      have hne : rest ≠ [] := by
        rintro rfl
        simp [ofSegments, hblank] at h
      rw [ofSegments_of_allBlank hblank hne] at h
      obtain ⟨calls, hcalls, rfl⟩ := Option.map_eq_some_iff.mp h
      obtain ⟨next, others, rfl⟩ := List.exists_cons_of_ne_nil hne
      rw [text, ink_append, ink_intercalate_text hcalls, List.intercalate_cons_cons, ink_append,
        ink_append, ink_of_allBlank hblank]
      rfl
    | false =>
      rw [ofSegments_of_hasInk hblank] at h
      obtain ⟨calls, hcalls, rfl⟩ := Option.map_eq_some_iff.mp h
      exact ink_intercalate_text hcalls

theorem ink_text {t : Text} {o : Outline} (h : outline t = some o) : ink o.text = ink t := by
  unfold outline at h
  split at h
  · cases h
  · obtain ⟨segments, hsegments, ho⟩ := Option.bind_eq_some_iff.mp h
    rw [ink_text_ofSegments ho, intercalate_splitTopLevel hsegments, ink_trim]

end Outline

/-! ## Trees -/

/-- **Ink through reading.** What is written for the tree of a text has the ink of the text. -/
theorem ink_render_parse (t : Text) : ink (parse t).render = ink t := by
  induction hlength : t.length using Nat.strong_induction_on generalizing t with
  | h length ih =>
    rw [parse_eq]
    cases ho : outline t with
    | none =>
      show ink (Node.render (.raw (trim t))) = ink t
      rw [Node.render, ink_trim]
    | some o =>
      obtain ⟨-, hcalls⟩ := isReading_of_outline ho
      -- the arguments are shorter than the text
      have hink : ∀ c ∈ o.calls, ink (c.toCall parse).render = ink c.text := fun c hc =>
        CallOutline.ink_toCall fun texts hargs u hu =>
          ih u.length (hlength ▸ ((hcalls c hc).args texts hargs u hu).length_lt) u rfl
      have hinks : ((o.calls.map (CallOutline.toCall parse)).map Call.render).map ink =
          (o.calls.map CallOutline.text).map ink := by
        rw [List.map_map, List.map_map, List.map_map]
        exact List.map_congr_left hink
      show ink (o.toNode parse).render = ink t
      rw [← Outline.ink_text ho, Outline.toNode, Node.render, renderCalls_eq_map, Outline.text,
        ink_append, ink_append, ink_intercalate, ink_intercalate, hinks]

end Expression

end ModelSchemas

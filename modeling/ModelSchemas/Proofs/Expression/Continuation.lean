import ModelSchemas.Proofs.Expression.CallText
import ModelSchemas.Proofs.Expression.Cutting

/-!
# Going on with a call

A dot and a call written behind a text continue what the text is read as: a chain goes on with the
call, a blank text becomes the chain of the call, and what is kept as written is still kept so. The
call opens and closes nothing but its parentheses, so the text in front of it must be in order by
itself.
-/

namespace ModelSchemas

namespace Expression

open Scanner

/-! ## Pieces -/

/-- A text in front of a neutral one is split if both together are. -/
theorem exists_pieces_of_append {separator : Char} {t u : Text} (hu : IsNeutral u)
    {pieces : List Text} (h : splitTopLevel separator (t ++ u) = some pieces) :
    ∃ front, splitTopLevel separator t = some front := by
  obtain ⟨last, hafter, hdone⟩ := exists_after_of_pieces h
  rw [after_append] at hafter
  obtain ⟨mid, hmid, hrest⟩ := Option.bind_eq_some_iff.mp hafter
  have hdone' := hu.isDone_of_after (isProper_of_after hmid trivial) hrest hdone
  exact exists_pieces_of_after hmid hdone'

section

variable {separator : Char} (hsep : IsSeparator separator)

include hsep

/-- A whole piece behind a separator is one more piece, if it is neutral. -/
theorem splitTopLevel_append_piece {u : Text} (hneutral : IsNeutral (separator :: u))
    (hwhole : IsWhole separator u) (t : Text) :
    splitTopLevel separator (t ++ separator :: u) =
      (splitTopLevel separator t).map (· ++ [u]) := by
  cases hsplit : splitTopLevel separator t with
  | none =>
    cases happend : splitTopLevel separator (t ++ separator :: u) with
    | none => rfl
    | some pieces =>
      obtain ⟨front, hfront⟩ := exists_pieces_of_append hneutral happend
      rw [hsplit] at hfront
      cases hfront
  | some pieces =>
    have hne : pieces ≠ [] := piecesFrom_ne_nil hsplit
    have hall : ∀ piece ∈ pieces ++ [u], IsWhole separator piece := by
      intro piece hpiece
      rcases List.mem_append.mp hpiece with hpiece | hpiece
      · exact (isWhole_of_mem_splitTopLevel hsep hsplit piece hpiece).1
      · rwa [List.mem_singleton.mp hpiece]
    have hjoined : List.intercalate [separator] (pieces ++ [u]) = t ++ separator :: u := by
      rw [Text.intercalate_append [separator] hne (by simp), intercalate_splitTopLevel hsplit]
      simp
    rw [← hjoined]
    exact splitTopLevel_intercalate hsep (by simp) hall

/-- Blanks behind a text change the last piece only, and that only by blanks. -/
theorem splitTopLevel_append_blanks {blanks : Text} (h : Text.allBlank blanks) (t : Text) :
    (splitTopLevel separator (t ++ blanks)).map (List.map Text.trim) =
      (splitTopLevel separator t).map (List.map Text.trim) := by
  cases hsplit : splitTopLevel separator t with
  | none =>
    cases happend : splitTopLevel separator (t ++ blanks) with
    | none => rfl
    | some pieces =>
      obtain ⟨front, hfront⟩ := exists_pieces_of_append (isNeutral_of_allBlank h) happend
      rw [hsplit] at hfront
      cases hfront
  | some pieces =>
    obtain ⟨init, last, rfl⟩ : ∃ init last, pieces = init ++ [last] :=
      ⟨_, _, (List.dropLast_append_getLast (piecesFrom_ne_nil hsplit)).symm⟩
    have hwhole := isWhole_of_mem_splitTopLevel hsep hsplit
    have hall : ∀ piece ∈ init ++ [last ++ blanks], IsWhole separator piece := by
      intro piece hpiece
      rcases List.mem_append.mp hpiece with hpiece | hpiece
      · exact (hwhole piece (List.mem_append_left _ hpiece)).1
      · rw [List.mem_singleton.mp hpiece, isWhole_append_right hsep h]
        exact (hwhole last (by simp)).1
    have hjoined : List.intercalate [separator] (init ++ [last ++ blanks]) = t ++ blanks := by
      rw [Text.intercalate_concat_append, intercalate_splitTopLevel hsplit]
    rw [← hjoined, splitTopLevel_intercalate hsep (by simp) hall]
    simp [Text.trim_append_blanks h]

end

/-! ## Segments -/

/-- The text of a call that may stand behind a dot wherever the text in front of it is in order. -/
structure IsSegment (u : Text) (c : CallOutline) : Prop where
  isNeutral : IsNeutral u
  isWhole : IsWhole '.' u
  hasInkAtEnds : u.HasInkAtEnds
  read? : CallOutline.read? u = some c

/-- An invocation without arguments. -/
theorem isSegment_invocation {name : Text} (h : IsName name) :
    IsSegment (name ++ "()") ⟨name, none, some []⟩ := by
  have htext : name ++ "()" = callText name none (some []) := by
    simp [callText, argumentList, renderTypeArgs]
  have hparts : AreCallParts name none (some []) := ⟨h, by simp, by simp, by simp⟩
  have hparentheses : IsNeutral "()" := isNeutral_of_all rfl rfl
  refine ⟨(isNeutral_of_isOrdinary (h.isOrdinary isSeparator_dot)).append hparentheses, ?_, ?_, ?_⟩
  · rw [htext]
    exact (hparts.isPassable (.inl rfl)).isWhole
  · rw [htext]
    exact hparts.hasInkAtEnds
  · rw [htext]
    exact hparts.read?_eq

namespace IsSegment

variable {u : Text} {c : CallOutline} (hu : IsSegment u c)

include hu

theorem ne_nil : u ≠ [] := by
  rintro rfl
  cases hu.read?

theorem isNeutral_dot : IsNeutral ('.' :: u) := by
  have hdot : IsNeutral ['.'] := isNeutral_of_all rfl rfl
  exact hdot.append hu.isNeutral

/-! ## One level -/

/-- Behind a blank text the call is the chain. -/
theorem outline_of_allBlank {t : Text} (ht : Text.allBlank t) :
    outline (t ++ '.' :: u) = some ⟨true, [c]⟩ := by
  have hdot : Text.HasInkAtEnds ['.'] := Text.hasInkAtEnds_singleton (by decide)
  have hink : Text.HasInkAtEnds ('.' :: u) := hdot.append hu.hasInkAtEnds
  have hsplit : splitTopLevel '.' ('.' :: u) = some [[], u] := by
    rw [splitTopLevel, piecesFrom_separator isSeparator_dot rfl, hu.isWhole.split]
    rfl
  have houtline : outline (t ++ '.' :: u) = outline ('.' :: u) :=
    outline_congr (Text.trim_append_of_allBlank ht _)
  rw [houtline, outline_of_hasInkAtEnds hink (by simp), hsplit, Option.bind_some,
    Outline.ofSegments_of_allBlank rfl (by simp), List.mapM_cons, hu.hasInkAtEnds.trim_eq_self,
    hu.read?]
  rfl

/-- Blanks between a text and the dot stay with the last piece of the text. -/
theorem splitTopLevel_append {blanks : Text} (h : Text.allBlank blanks) (t : Text) :
    (splitTopLevel '.' ((t ++ blanks) ++ '.' :: u)).map (List.map Text.trim) =
      (splitTopLevel '.' t).map fun pieces => (pieces ++ [u]).map Text.trim := by
  have hblanks := splitTopLevel_append_blanks isSeparator_dot h t
  rw [splitTopLevel_append_piece isSeparator_dot hu.isNeutral_dot hu.isWhole, Option.map_map]
  calc (splitTopLevel '.' (t ++ blanks)).map (List.map Text.trim ∘ (· ++ [u]))
      = ((splitTopLevel '.' (t ++ blanks)).map (List.map Text.trim)).map (· ++ [Text.trim u]) := by
        simp [Function.comp_def]
    _ = ((splitTopLevel '.' t).map (List.map Text.trim)).map (· ++ [Text.trim u]) := by
        rw [hblanks]
    _ = (splitTopLevel '.' t).map fun pieces => (pieces ++ [u]).map Text.trim := by
        simp [Function.comp_def]

/-- Behind any other text the call is one more call of the chain, if there is a chain. -/
theorem outline_append {t : Text} (ht : Text.allBlank t = false) :
    outline (t ++ '.' :: u) = (outline t).map fun o => { o with calls := o.calls ++ [c] } := by
  obtain ⟨before, behind, hbefore, hbehind, heq⟩ := Text.exists_eq_trim_between t
  have hne : Text.trim t ≠ [] := by
    intro hnil
    rw [Text.trim_eq_nil_iff.mp hnil] at ht
    cases ht
  have hcoreInk : (Text.trim t).HasInkAtEnds := Text.hasInkAtEnds_trim t
  have hcore : outline t = outline (Text.trim t) := outline_congr (Text.trim_trim t).symm
  generalize Text.trim t = core at heq hne hcoreInk hcore
  -- blanks in front are trimmed away
  have happend : outline (t ++ '.' :: u) = outline ((core ++ behind) ++ '.' :: u) := by
    refine outline_congr ?_
    rw [heq, List.append_assoc, Text.trim_append_of_allBlank hbefore]
  have hink : Text.HasInkAtEnds ((core ++ behind) ++ '.' :: u) := by
    constructor
    · intro d hd
      rw [List.append_assoc, List.head?_append_of_ne_nil _ hne] at hd
      exact hcoreInk.1 d hd
    · intro d hd
      rw [List.getLast?_append_cons, List.getLast?_cons_of_ne_nil hu.ne_nil] at hd
      exact hu.hasInkAtEnds.2 d hd
  rw [happend, outline_of_hasInkAtEnds hink (by simp), ← Outline.bind_ofSegments_map_trim,
    hu.splitTopLevel_append hbehind, hcore, outline_of_hasInkAtEnds hcoreInk hne]
  cases hsplit : splitTopLevel '.' core with
  | none => rfl
  | some pieces =>
    have honly : ∀ only, pieces = [only] → Text.allBlank only = false := by
      rintro only rfl
      rw [← intercalate_splitTopLevel hsplit, List.intercalate_singleton] at hcoreInk hne
      exact hcoreInk.allBlank hne
    have hread : CallOutline.read? (Text.trim u) = some c := by
      rw [hu.hasInkAtEnds.trim_eq_self, hu.read?]
    rw [Option.map_some, Option.bind_some, Option.bind_some, Outline.ofSegments_map_trim,
      Outline.ofSegments_concat (piecesFrom_ne_nil hsplit) honly hread]

/-! ## All levels -/

theorem parse_of_allBlank {t : Text} (ht : Text.allBlank t) :
    parse (t ++ '.' :: u) = .chain true [c.toCall parse] := by
  rw [parse_eq, hu.outline_of_allBlank ht]
  rfl

/-- A chain goes on with the call. -/
theorem parse_of_chain {t : Text} {leadingDot : Bool} {calls : List Call}
    (h : parse t = .chain leadingDot calls) :
    parse (t ++ '.' :: u) = .chain leadingDot (calls ++ [c.toCall parse]) := by
  rw [parse_eq] at h
  cases houtline : outline t with
  | none =>
    rw [houtline] at h
    cases h
  | some o =>
    rw [houtline] at h
    cases h
    have ht : Text.allBlank t = false := by
      rw [Bool.eq_false_iff]
      intro hblank
      rw [outline, Text.trim_eq_nil_iff.mpr hblank] at houtline
      cases houtline
    rw [parse_eq, hu.outline_append ht, houtline]
    simp [Outline.toNode]

/-- What is kept as written is still kept so, unless it is blank. -/
theorem parse_of_raw {t r : Text} (h : parse t = .raw r) (ht : Text.allBlank t = false) :
    ∃ r', parse (t ++ '.' :: u) = .raw r' := by
  rw [parse_eq] at h
  cases houtline : outline t with
  | none =>
    rw [parse_eq, hu.outline_append ht, houtline]
    exact ⟨_, rfl⟩
  | some o =>
    rw [houtline] at h
    cases h

/-- Whatever the text in front is, a chain behind it ends with the call. -/
theorem parse_append_cases (t : Text) :
    (∃ r, parse (t ++ '.' :: u) = .raw r) ∨
      ∃ leadingDot calls, parse (t ++ '.' :: u) = .chain leadingDot (calls ++ [c.toCall parse]) := by
  cases ht : Text.allBlank t with
  | true => exact .inr ⟨true, [], hu.parse_of_allBlank ht⟩
  | false =>
    cases hparse : parse t with
    | raw r => exact .inl (hu.parse_of_raw hparse ht)
    | chain leadingDot calls => exact .inr ⟨leadingDot, calls, hu.parse_of_chain hparse⟩

end IsSegment

end Expression

end ModelSchemas

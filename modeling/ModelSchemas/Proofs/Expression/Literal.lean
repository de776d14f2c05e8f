import ModelSchemas.Expression.Normalisation
import ModelSchemas.Proofs.Expression.CallText
import ModelSchemas.Proofs.Expression.Cutting

/-!
# Literals

An array or object literal is a pair of brackets around parts that are joined by commas. Every part
holds at most one value, and a transformation of the values keeps all that stands around them. What
it writes is a literal again, with the transformed values, as long as each of them may stand in the
place of the old one.
-/

namespace ModelSchemas

namespace Expression

open Scanner Text

/-! ## Values -/

/-- A text that may take the place of a value. -/
structure IsValue (v : Text) : Prop where
  isWhole : IsWhole ',' v
  hasInkAtEnds : v.HasInkAtEnds
  ne_nil : v ≠ []

theorem isValue_trim {t : Text} (hwhole : IsWhole ',' t) (hink : allBlank t = false) :
    IsValue (trim t) where
  isWhole := (isWhole_trim_iff isSeparator_comma).mpr hwhole
  hasInkAtEnds := hasInkAtEnds_trim t
  ne_nil hnil := by
    rw [trim_eq_nil_iff.mp hnil] at hink
    cases hink

/-! ### Between blanks -/

section

variable {before behind v : Text}

theorem isWhole_between_blanks (hbefore : allBlank before) (hbehind : allBlank behind)
    (hv : IsValue v) : IsWhole ',' (before ++ (v ++ behind)) :=
  (isWhole_append_left isSeparator_comma hbefore).mpr
    ((isWhole_append_right isSeparator_comma hbehind).mpr hv.isWhole)

theorem IsValue.allBlank_between (hv : IsValue v) (before behind : Text) :
    allBlank (before ++ (v ++ behind)) = false := by
  have hink := hv.hasInkAtEnds.allBlank hv.ne_nil
  simp only [allBlank, List.all_append] at hink ⊢
  rw [hink, Bool.false_and, Bool.and_false]

/-- The blanks in front of a value end with it. -/
theorem span_leadingBlanks (hbefore : allBlank before) (hv : IsValue v) (behind : Text) :
    leadingBlanks (before ++ (v ++ behind)) = before ∧
      trimStart (before ++ (v ++ behind)) = v ++ behind := by
  refine span_append (List.all_eq_true.mp hbefore) fun c hc => ?_
  rw [List.head?_append_of_ne_nil _ hv.ne_nil] at hc
  exact hv.hasInkAtEnds.1 c hc

/-- The blanks behind a value start with it, whatever stands in front of it. -/
theorem span_trailingBlanks (hbehind : allBlank behind) (hv : IsValue v) (before : Text) :
    trailingBlanks (before ++ (v ++ behind)) = behind ∧ trimEnd (v ++ behind) = v := by
  have hbehind' : ∀ c ∈ behind.reverse, isBlank c :=
    fun c hc => List.all_eq_true.mp hbehind c (List.mem_reverse.mp hc)
  have hlast : ∀ (more : Text) c, (v.reverse ++ more).head? = some c → isBlank c = false := by
    intro more c hc
    have hne : v.reverse ≠ [] := by simpa using hv.ne_nil
    rw [List.head?_append_of_ne_nil _ hne, List.head?_reverse] at hc
    exact hv.hasInkAtEnds.2 c hc
  constructor
  · have hspan := (span_append hbehind' (hlast before.reverse)).1
    rw [trailingBlanks, List.reverse_append, List.reverse_append, List.append_assoc, hspan,
      List.reverse_reverse]
  · have hspan := (span_append hbehind' (hlast [])).2
    rw [List.append_nil] at hspan
    rw [trimEnd, List.reverse_append, hspan, List.reverse_reverse]

theorem trim_between_blanks (hbefore : allBlank before) (hbehind : allBlank behind)
    (hv : IsValue v) : trim (before ++ (v ++ behind)) = v := by
  rw [trim, (span_leadingBlanks hbefore hv behind).2, (span_trailingBlanks hbehind hv before).2]

/-- A value between blanks is transformed between the same blanks. -/
theorem withinBlanks_between_blanks (hbefore : allBlank before) (hbehind : allBlank behind)
    (hv : IsValue v) (onValue : Text → Text) :
    withinBlanks onValue (before ++ (v ++ behind)) = before ++ (onValue v ++ behind) := by
  rw [withinBlanks, hv.allBlank_between, if_neg Bool.false_ne_true,
    (span_leadingBlanks hbefore hv behind).1, (span_trailingBlanks hbehind hv before).1,
    trim_between_blanks hbefore hbehind hv, List.append_assoc]

end

/-! ## The colon of a property -/

/-- Where a part is cut at its first colon, the scanner of the commas is fresh as well: the value is
whole, and another whole value may take its place. -/
theorem isWhole_property_iff {key value : Text} (hkey : IsWhole ':' key)
    (hpart : IsWhole ',' (key ++ ':' :: value)) (other : Text) :
    IsWhole ',' (key ++ ':' :: other) ↔ IsWhole ',' other := by
  obtain ⟨mid, hkeyPass, hdone⟩ := hkey
  obtain ⟨-, next, hstep, hfresh⟩ := cuts_of_isDone isSeparator_colon hdone
  obtain ⟨last, hpass, -⟩ := hpart
  obtain ⟨mid', hkeyPass', -⟩ := hpass.of_append
  cases Option.some.inj (hkeyPass.after_eq.symm.trans hkeyPass'.after_eq)
  have hcolon : Passes ',' mid [':'] next := .cons (cuts_of_ne (by decide)) hstep (.nil next)
  rw [isWhole_iff_of_isFresh hfresh (t := other)]
  constructor
  · rintro ⟨last, hpass, hlast⟩
    obtain ⟨mid', hkeyPass'', hrest⟩ := hpass.of_append
    cases hkeyPass'.unique hkeyPass''
    cases hrest with
    | cons _ hstep' hother =>
      cases hstep.symm.trans hstep'
      exact ⟨last, hother, hlast⟩
  · rintro ⟨last, hother, hlast⟩
    exact ⟨last, hkeyPass'.append (hcolon.append hother), hlast⟩

/-! ## Parts -/

/-- The text behind the first colon of a part, if there is one. -/
def propertyValue? (part : Text) : Option Text :=
  match splitTopLevel ':' part with
  | some (_ :: piece :: pieces) => some (List.intercalate [':'] (piece :: pieces))
  | _ => none

/-- The value in a part of a literal that starts with `first`, if there is one. -/
def partValue? (first : Char) (part : Text) : Option Text :=
  ((if first = '\x7b' then propertyValue? part else some part).filter fun v => !allBlank v).map trim

/-- How the parts of a literal are transformed: the elements of an array as they are, and the
properties of an object behind their colon. -/
def transformPart (first : Char) (onValue : Text → Text) : Text → Text :=
  if first = '\x7b' then transformProperty onValue else withinBlanks onValue

/-- Any value may stand between two texts, and is found there and transformed there. -/
structure IsSlot (first : Char) (before behind : Text) : Prop where
  value : ∀ {v}, IsValue v → partValue? first (before ++ (v ++ behind)) = some v
  transform : ∀ {v}, IsValue v → ∀ onValue,
    transformPart first onValue (before ++ (v ++ behind)) = before ++ (onValue v ++ behind)
  isWhole : ∀ {v}, IsValue v → IsWhole ',' (before ++ (v ++ behind))

/-- A part without a value, which no transformation changes. -/
structure HasNoValue (first : Char) (part : Text) : Prop where
  value : partValue? first part = none
  transform : ∀ onValue, transformPart first onValue part = part

theorem isSlot_of_allBlank {first : Char} (hfirst : first ≠ '\x7b') {before behind : Text}
    (hbefore : allBlank before) (hbehind : allBlank behind) : IsSlot first before behind where
  value hv := by
    rw [partValue?, if_neg hfirst, Option.filter_some, hv.allBlank_between before behind]
    exact congrArg some (trim_between_blanks hbefore hbehind hv)
  transform hv onValue := by
    rw [transformPart, if_neg hfirst]
    exact withinBlanks_between_blanks hbefore hbehind hv onValue
  isWhole hv := isWhole_between_blanks hbefore hbehind hv

/-- The elements of an array. -/
theorem element_cases {first : Char} (hfirst : first ≠ '\x7b') {part : Text}
    (hpart : IsWhole ',' part) :
    HasNoValue first part ∨ ∃ before behind v, IsSlot first before behind ∧ IsValue v ∧
      part = before ++ (v ++ behind) := by
  cases hblank : allBlank part with
  | true =>
    left
    constructor
    · rw [partValue?, if_neg hfirst, Option.filter_some, hblank]
      rfl
    · intro onValue
      rw [transformPart, if_neg hfirst, withinBlanks, if_pos hblank]
  | false =>
    right
    obtain ⟨before, behind, hbefore, hbehind, heq⟩ := exists_eq_trim_between part
    exact ⟨before, behind, trim part, isSlot_of_allBlank hfirst hbefore hbehind,
      isValue_trim hpart hblank, heq⟩

/-- A property behind its colon. -/
theorem split_property {key value : Text} (hkey : IsWhole ':' key) (hvalue : IsWhole ',' value) :
    ∃ piece pieces, splitTopLevel ':' (key ++ ':' :: value) = some (key :: piece :: pieces) ∧
      List.intercalate [':'] (piece :: pieces) = value := by
  obtain ⟨last, hpass, hdone⟩ := hvalue
  obtain ⟨pieces, hpieces⟩ : ∃ pieces, splitTopLevel ':' value = some pieces :=
    exists_pieces_of_after hpass.after_eq hdone
  obtain ⟨piece, pieces, rfl⟩ := List.exists_cons_of_ne_nil (piecesFrom_ne_nil hpieces)
  exact ⟨piece, pieces, hkey.split_append isSeparator_colon hpieces,
    intercalate_splitTopLevel hpieces⟩

theorem isSlot_of_property {key before behind : Text} (hkey : IsWhole ':' key)
    (hbefore : allBlank before) (hbehind : allBlank behind)
    (hwhole : ∀ other, IsWhole ',' other → IsWhole ',' (key ++ ':' :: other)) :
    IsSlot '\x7b' (key ++ ':' :: before) behind where
  value {v} hv := by
    obtain ⟨piece, pieces, hsplit, hjoin⟩ :=
      split_property hkey (isWhole_between_blanks hbefore hbehind hv)
    rw [List.append_assoc, List.cons_append, partValue?, if_pos rfl, propertyValue?, hsplit]
    simp only [hjoin, Option.filter_some, hv.allBlank_between before behind]
    exact congrArg some (trim_between_blanks hbefore hbehind hv)
  transform {v} hv onValue := by
    obtain ⟨piece, pieces, hsplit, hjoin⟩ :=
      split_property hkey (isWhole_between_blanks hbefore hbehind hv)
    rw [List.append_assoc, List.cons_append, transformPart, if_pos rfl, transformProperty, hsplit]
    simp only [hjoin, withinBlanks_between_blanks hbefore hbehind hv, List.append_assoc,
      List.cons_append]
  isWhole hv := by
    rw [List.append_assoc, List.cons_append]
    exact hwhole _ (isWhole_between_blanks hbefore hbehind hv)

/-- The properties of an object. -/
theorem property_cases {part : Text} (hpart : IsWhole ',' part) :
    HasNoValue '\x7b' part ∨ ∃ before behind v, IsSlot '\x7b' before behind ∧ IsValue v ∧
      part = before ++ (v ++ behind) := by
  by_cases hsplit : ∃ key piece pieces, splitTopLevel ':' part = some (key :: piece :: pieces)
  · obtain ⟨key, piece, pieces, hsplit⟩ := hsplit
    have hkey := (isWhole_of_mem_splitTopLevel isSeparator_colon hsplit key List.mem_cons_self).1
    have hjoin := intercalate_splitTopLevel hsplit
    rw [List.intercalate_cons_cons, List.append_assoc, List.singleton_append] at hjoin
    generalize hvalue : List.intercalate [':'] (piece :: pieces) = value at hjoin
    subst hjoin
    have hiff := isWhole_property_iff hkey hpart
    cases hblank : allBlank value with
    | true =>
      left
      constructor
      · rw [partValue?, if_pos rfl, propertyValue?, hsplit]
        simp only [hvalue, Option.filter_some, hblank]
        rfl
      · intro onValue
        rw [transformPart, if_pos rfl, transformProperty, hsplit]
        simp only [hvalue, withinBlanks, hblank, if_true]
    | false =>
      right
      obtain ⟨before, behind, hbefore, hbehind, heq⟩ := exists_eq_trim_between value
      refine ⟨key ++ ':' :: before, behind, trim value,
        isSlot_of_property hkey hbefore hbehind fun other => (hiff other).mpr,
        isValue_trim ((hiff value).mp hpart) hblank, ?_⟩
      rw [List.append_assoc, List.cons_append, ← heq]
  · left
    constructor
    · rw [partValue?, if_pos rfl, propertyValue?]
      split
      · rename_i key piece pieces heq
        exact absurd ⟨key, piece, pieces, heq⟩ hsplit
      · rfl
    · intro onValue
      rw [transformPart, if_pos rfl, transformProperty]
      split
      · rename_i key piece pieces heq
        exact absurd ⟨key, piece, pieces, heq⟩ hsplit
      · rfl

/-- **Parts.** A whole part holds no value, or one that others may take the place of. -/
theorem part_cases (first : Char) {part : Text} (hpart : IsWhole ',' part) :
    HasNoValue first part ∨ ∃ before behind v, IsSlot first before behind ∧ IsValue v ∧
      part = before ++ (v ++ behind) := by
  by_cases hfirst : first = '\x7b'
  · rw [hfirst]
    exact property_cases hpart
  · exact element_cases hfirst hpart

section

variable {first : Char} {part : Text} (hpart : IsWhole ',' part) {onValue : Text → Text}

include hpart

theorem isValue_of_partValue? {v : Text} (h : partValue? first part = some v) :
    IsValue v ∧ v.length ≤ part.length := by
  rcases part_cases first hpart with hnone | ⟨before, behind, v', hslot, hv, rfl⟩
  · cases hnone.value.symm.trans h
  · cases (hslot.value hv).symm.trans h
    refine ⟨hv, ?_⟩
    rw [List.length_append, List.length_append]
    omega

theorem transformPart_congr {onValue' : Text → Text}
    (h : ∀ v, partValue? first part = some v → onValue v = onValue' v) :
    transformPart first onValue part = transformPart first onValue' part := by
  rcases part_cases first hpart with hnone | ⟨before, behind, v, hslot, hv, rfl⟩
  · rw [hnone.transform, hnone.transform]
  · rw [hslot.transform hv, hslot.transform hv, h v (hslot.value hv)]

theorem transformPart_id : transformPart first id part = part := by
  rcases part_cases first hpart with hnone | ⟨before, behind, v, hslot, hv, rfl⟩
  · rw [hnone.transform]
  · rw [hslot.transform hv, id_eq]

/-- What is written in the place of a value is the value of the new part. -/
theorem transformPart_spec (h : ∀ v, partValue? first part = some v → IsValue (onValue v)) :
    IsWhole ',' (transformPart first onValue part) ∧
      partValue? first (transformPart first onValue part) = (partValue? first part).map onValue ∧
      ∀ more, transformPart first more (transformPart first onValue part) =
        transformPart first (more ∘ onValue) part := by
  rcases part_cases first hpart with hnone | ⟨before, behind, v, hslot, hv, rfl⟩
  · rw [hnone.transform, hnone.value]
    refine ⟨hpart, rfl, fun more => ?_⟩
    rw [hnone.transform, hnone.transform]
  · have hnew := h v (hslot.value hv)
    rw [hslot.transform hv, hslot.value hv]
    refine ⟨hslot.isWhole hnew, hslot.value hnew, fun more => ?_⟩
    rw [hslot.transform hnew, hslot.transform hv]
    rfl

end

/-! ## Literals -/

/-- The values in the parts of a literal. -/
def literalValues (t : Text) : List Text :=
  match literalBody? t with
  | none => []
  | some body =>
    match splitTopLevel ',' body with
    | none => []
    | some parts => parts.filterMap (partValue? (if t.head? = some '\x7b' then '\x7b' else '['))

/-- A literal with its brackets and its parts. -/
structure IsLiteral (t : Text) (first close : Char) (parts : List Text) : Prop where
  closerOf : closerOf first = some close
  opens : first = '[' ∨ first = '\x7b'
  ne_nil : parts ≠ []
  isWhole : ∀ part ∈ parts, IsWhole ',' part
  eq : t = first :: (List.intercalate [','] parts ++ [close])

theorem literalBody?_eq_some {t body : Text} (h : literalBody? t = some body) :
    ∃ first close, closerOf first = some close ∧ (first = '[' ∨ first = '\x7b') ∧
      t = first :: (body ++ [close]) := by
  unfold literalBody? at h
  split at h
  · rename_i inner
    split_ifs at h with hclose
    cases h
    have hinner := eq_concat_of_matchingClose rfl hclose
    exact ⟨'[', ']', rfl, .inl rfl, congrArg _ hinner⟩
  · rename_i inner
    split_ifs at h with hclose
    cases h
    have hinner := eq_concat_of_matchingClose rfl hclose
    exact ⟨'\x7b', '\x7d', rfl, .inr rfl, congrArg _ hinner⟩
  · cases h

/-- A text is a literal, or it holds no value and no transformation changes it. -/
theorem isLiteral_or (t : Text) :
    (∃ first close parts, IsLiteral t first close parts) ∨
      (literalValues t = [] ∧ ∀ onValue, transformLiteral onValue t = t) := by
  cases hbody : literalBody? t with
  | none =>
    right
    simp only [literalValues, transformLiteral, hbody, implies_true, and_self]
  | some body =>
    cases hparts : splitTopLevel ',' body with
    | none =>
      right
      simp only [literalValues, transformLiteral, hbody, hparts, implies_true, and_self]
    | some parts =>
      left
      obtain ⟨first, close, hcloser, hopens, heq⟩ := literalBody?_eq_some hbody
      have hwhole := isWhole_of_mem_splitTopLevel isSeparator_comma hparts
      refine ⟨first, close, parts, hcloser, hopens, piecesFrom_ne_nil hparts, ?_, ?_⟩
      · exact fun part hpart => (hwhole part hpart).1
      · rw [intercalate_splitTopLevel hparts]
        exact heq

namespace IsLiteral

variable {t : Text} {first close : Char} {parts : List Text} (h : IsLiteral t first close parts)

include h

theorem isBalanced : IsBalanced (List.intercalate [','] parts) :=
  Text.intercalate_of_append isBalanced_nil IsBalanced.append (isBalanced_of_plain (by decide))
    fun part hpart => (h.isWhole part hpart).isBalanced

theorem split : splitTopLevel ',' (List.intercalate [','] parts) = some parts :=
  splitTopLevel_intercalate isSeparator_comma h.ne_nil h.isWhole

theorem literalBody?_eq : literalBody? t = some (List.intercalate [','] parts) := by
  have hclose := matchingClose_bracketed h.closerOf h.isBalanced
  rcases h.opens with rfl | rfl
  · rw [h.eq, literalBody?, if_pos hclose, List.dropLast_concat]
  · rw [h.eq, literalBody?, if_pos hclose, List.dropLast_concat]

theorem head?_eq : (t.head? = some '\x7b') = (first = '\x7b') := by
  rw [h.eq, List.head?_cons, Option.some.injEq]

theorem literalValues_eq : literalValues t = parts.filterMap (partValue? first) := by
  have hfirst : (if first = '\x7b' then '\x7b' else '[') = first := by
    rcases h.opens with rfl | rfl <;> rfl
  rw [literalValues, h.literalBody?_eq]
  simp only [h.split, h.head?_eq, hfirst]

theorem transformLiteral_eq (onValue : Text → Text) :
    transformLiteral onValue t =
      first :: (List.intercalate [','] (parts.map (transformPart first onValue)) ++ [close]) := by
  have hlast : t.drop (t.length - 1) = [close] := by
    rw [h.eq, List.length_cons, Nat.add_sub_cancel, List.length_append, List.length_singleton,
      List.drop_succ_cons, List.drop_left]
  have htake : t.take 1 = [first] := by
    rw [h.eq, List.take_succ_cons, List.take_zero]
  rw [transformLiteral, h.literalBody?_eq]
  simp only [h.split, hlast, htake, h.head?_eq]
  rfl

/-- A literal may itself stand as a value. -/
theorem isValue : IsValue t where
  isWhole := by
    rw [h.eq]
    exact ⟨_, passes_bracketed h.closerOf h.isBalanced isSeparator_comma 0 none, rfl⟩
  hasInkAtEnds := by
    rw [h.eq]
    rcases cases_of_closerOf h.closerOf with ⟨rfl, rfl⟩ | ⟨rfl, rfl⟩ | ⟨rfl, rfl⟩ <;>
      exact hasInkAtEnds_enclosed (by decide) (by decide) _
  ne_nil := by
    rw [h.eq]
    exact List.cons_ne_nil _ _

theorem mem_literalValues_iff {v : Text} :
    v ∈ literalValues t ↔ ∃ part ∈ parts, partValue? first part = some v := by
  rw [h.literalValues_eq, List.mem_filterMap]

/-- A literal with transformed values is a literal. -/
theorem transform {onValue : Text → Text} (hvalues : ∀ v ∈ literalValues t, IsValue (onValue v)) :
    IsLiteral (transformLiteral onValue t) first close
      (parts.map (transformPart first onValue)) where
  closerOf := h.closerOf
  opens := h.opens
  ne_nil := by simpa using h.ne_nil
  isWhole := by
    intro part hpart
    obtain ⟨old, hold, rfl⟩ := List.mem_map.mp hpart
    refine (transformPart_spec (h.isWhole old hold) fun v hv => ?_).1
    exact hvalues v (h.mem_literalValues_iff.mpr ⟨old, hold, hv⟩)
  eq := h.transformLiteral_eq onValue

end IsLiteral

section

variable {t : Text}

theorem isValue_of_mem_literalValues {v : Text} (hv : v ∈ literalValues t) :
    IsValue v ∧ v.length < t.length := by
  rcases isLiteral_or t with ⟨first, close, parts, h⟩ | ⟨hnone, -⟩
  · obtain ⟨part, hpart, hvalue⟩ := h.mem_literalValues_iff.mp hv
    obtain ⟨hvalue, hlength⟩ := isValue_of_partValue? (h.isWhole part hpart) hvalue
    have hle := (isWhole_of_mem_splitTopLevel isSeparator_comma h.split part hpart).2
    refine ⟨hvalue, ?_⟩
    rw [h.eq, List.length_cons, List.length_append]
    omega
  · rw [hnone] at hv
    cases hv

/-- Transformations that agree on the values of a literal agree on the literal. -/
theorem transformLiteral_congr {onValue onValue' : Text → Text}
    (h : ∀ v ∈ literalValues t, onValue v = onValue' v) :
    transformLiteral onValue t = transformLiteral onValue' t := by
  rcases isLiteral_or t with ⟨first, close, parts, hliteral⟩ | ⟨-, hsame⟩
  · have hparts : ∀ part ∈ parts,
        transformPart first onValue part = transformPart first onValue' part := fun part hpart =>
      transformPart_congr (hliteral.isWhole part hpart) fun v hv =>
        h v (hliteral.mem_literalValues_iff.mpr ⟨part, hpart, hv⟩)
    rw [hliteral.transformLiteral_eq, hliteral.transformLiteral_eq, List.map_congr_left hparts]
  · rw [hsame, hsame]

/-- A transformation that changes no value of a literal leaves it as it is. -/
theorem transformLiteral_eq_self {onValue : Text → Text}
    (h : ∀ v ∈ literalValues t, onValue v = v) : transformLiteral onValue t = t := by
  have hid : transformLiteral onValue t = transformLiteral id t :=
    transformLiteral_congr fun v hv => h v hv
  rw [hid]
  rcases isLiteral_or t with ⟨first, close, parts, hliteral⟩ | ⟨-, hsame⟩
  · have hparts : ∀ part ∈ parts, transformPart first id part = id part := fun part hpart =>
      transformPart_id (hliteral.isWhole part hpart)
    rw [hliteral.transformLiteral_eq, List.map_congr_left hparts, List.map_id, ← hliteral.eq]
  · exact hsame id

variable {onValue : Text → Text} (h : ∀ v ∈ literalValues t, IsValue (onValue v))

include h

/-- The values of a transformed literal are the transformed values. -/
theorem literalValues_transformLiteral :
    literalValues (transformLiteral onValue t) = (literalValues t).map onValue := by
  rcases isLiteral_or t with ⟨first, close, parts, hliteral⟩ | ⟨hnone, hsame⟩
  · rw [(hliteral.transform h).literalValues_eq, hliteral.literalValues_eq, List.filterMap_map,
      List.map_filterMap]
    refine List.filterMap_congr fun part hpart => ?_
    refine (transformPart_spec (hliteral.isWhole part hpart) fun v hv => ?_).2.1
    exact h v (hliteral.mem_literalValues_iff.mpr ⟨part, hpart, hv⟩)
  · rw [hsame, hnone]
    rfl

/-- Two transformations in a row transform each value twice. -/
theorem transformLiteral_transformLiteral (more : Text → Text) :
    transformLiteral more (transformLiteral onValue t) = transformLiteral (more ∘ onValue) t := by
  rcases isLiteral_or t with ⟨first, close, parts, hliteral⟩ | ⟨-, hsame⟩
  · have hparts : ∀ part ∈ parts, (transformPart first more ∘ transformPart first onValue) part =
        transformPart first (more ∘ onValue) part := fun part hpart =>
      (transformPart_spec (hliteral.isWhole part hpart) fun v hv =>
        h v (hliteral.mem_literalValues_iff.mpr ⟨part, hpart, hv⟩)).2.2 more
    rw [(hliteral.transform h).transformLiteral_eq, hliteral.transformLiteral_eq, List.map_map,
      List.map_congr_left hparts]
  · rw [hsame, hsame, hsame]

end

end Expression

end ModelSchemas

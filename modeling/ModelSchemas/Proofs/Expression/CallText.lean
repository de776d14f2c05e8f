import ModelSchemas.Proofs.Expression.Generic

/-!
# The text of a call

A call with a proper name, delimited generic arguments and balanced arguments is written so that the
scanner passes over it in one piece and reading takes it apart again.
-/

namespace ModelSchemas

namespace Expression

open Scanner

/-! ## Names -/

theorem endsName_eq_continuesName (c : Char) : endsName c = continuesName c := by
  unfold endsName continuesName Text.isWordChar
  rw [Bool.or_comm (decide (c = '_'))]

theorem continuesName_of_startsName {c : Char} (h : startsName c) : continuesName c := by
  simp only [startsName, Bool.or_eq_true, decide_eq_true_eq] at h
  rcases h with (h | rfl) | rfl
  · have hword : Text.isLetterOrNumber c :=
      Text.isLetterOrNumber_of_isAlphanum (by simp [Char.isAlphanum, h])
    simp [continuesName, Text.isWordChar, hword]
  · decide
  · decide

theorem isBlank_of_continuesName {c : Char} (h : continuesName c) : Text.isBlank c = false := by
  simp only [continuesName, Bool.or_eq_true, decide_eq_true_eq] at h
  rcases h with h | rfl
  · exact Text.isBlank_of_isWordChar h
  · decide

theorem continuesName_of_isBlank {c : Char} (h : Text.isBlank c) : continuesName c = false := by
  rw [Bool.eq_false_iff]
  intro hname
  rw [isBlank_of_continuesName hname] at h
  cases h

namespace IsName

variable {name : Text} (h : IsName name)

include h

theorem ne_nil : name ≠ [] := by
  rintro rfl
  exact h

theorem continuesName : ∀ c ∈ name, continuesName c := by
  cases name with
  | nil => exact h.elim
  | cons first rest =>
    intro c hc
    rcases List.mem_cons.mp hc with rfl | hc
    · exact continuesName_of_startsName h.1
    · exact h.2 c hc

theorem hasInkAtEnds : Text.HasInkAtEnds name :=
  Text.hasInkAtEnds_of_all fun c hc => isBlank_of_continuesName (h.continuesName c hc)

/-- An angle bracket behind the name opens generic arguments. -/
theorem endsName_getLast (previous : Option Char) :
    (name.getLast?.or previous).any endsName := by
  have hlast := List.getLast?_eq_some_getLast h.ne_nil
  rw [hlast, Option.some_or, Option.any_some, endsName_eq_continuesName]
  exact h.continuesName _ (List.getLast_mem h.ne_nil)

theorem isOrdinary {separator : Char} (hsep : IsSeparator separator) :
    IsOrdinary separator 0 name := by
  intro c hc
  have hends : endsName c := (endsName_eq_continuesName c).trans (h.continuesName c hc)
  refine ⟨isPlain_of_class (by decide) hends, ?_, ?_, fun _ => ?_⟩
  · rintro rfl
    exact absurd hends (by decide)
  · rintro rfl
    exact absurd hends (by decide)
  · rintro rfl
    rw [hsep.endsName] at hends
    cases hends

end IsName

/-- A text of one class ends where a character outside the class begins. -/
theorem span_append {p : Char → Bool} {t after : Text} (ht : ∀ c ∈ t, p c)
    (hafter : ∀ c, after.head? = some c → p c = false) :
    (t ++ after).takeWhile p = t ∧ (t ++ after).dropWhile p = after := by
  rw [List.takeWhile_append_of_pos ht, List.dropWhile_append_of_pos ht]
  cases after with
  | nil => exact ⟨List.append_nil t, rfl⟩
  | cons c rest =>
    have hc : ¬ p c = true := by simp [hafter c rfl]
    rw [List.takeWhile_cons_of_neg hc, List.dropWhile_cons_of_neg hc]
    exact ⟨List.append_nil t, rfl⟩

/-! ## Argument lists -/

/-- The text of an argument list, if there is one, from the texts of the arguments. -/
def argumentList : Option (List Text) → Text
  | none => []
  | some texts => '(' :: List.intercalate [',', ' '] texts ++ [')']

/-- The pieces between the commas of an argument list: a blank stands in front of all but the
first. -/
def spacedRest : List Text → List Text
  | [] => []
  | first :: rest => first :: rest.map (' ' :: ·)

theorem intercalate_spacedRest (texts : List Text) :
    List.intercalate [','] (spacedRest texts) = List.intercalate [',', ' '] texts := by
  cases texts with
  | nil => rfl
  | cons first rest =>
    show List.intercalate [','] (first :: rest.map (' ' :: ·)) = _
    induction rest generalizing first with
    | nil => rw [List.map_nil, List.intercalate_singleton, List.intercalate_singleton]
    | cons next rest ih =>
      rw [List.map_cons, List.intercalate_cons_cons, Text.intercalate_cons_first, ih,
        List.intercalate_cons_cons]
      simp

theorem isBalanced_intercalate {texts : List Text} (h : ∀ t ∈ texts, IsBalanced t) :
    IsBalanced (List.intercalate [',', ' '] texts) :=
  Text.intercalate_of_append isBalanced_nil IsBalanced.append (isBalanced_of_plain (by decide)) h

/-- Whole texts that are joined by commas and blanks are found again, with the blanks. -/
theorem splitTopLevel_spaced {texts : List Text} (hne : texts ≠ [])
    (hwhole : ∀ t ∈ texts, IsWhole ',' t) :
    splitTopLevel ',' (List.intercalate [',', ' '] texts) = some (spacedRest texts) := by
  have hspace : Text.allBlank [' '] := by decide
  cases texts with
  | nil => exact absurd rfl hne
  | cons first rest =>
    have hwhole' : ∀ t ∈ spacedRest (first :: rest), IsWhole ',' t := by
      intro t ht
      rcases List.mem_cons.mp ht with rfl | ht
      · exact hwhole t List.mem_cons_self
      · obtain ⟨u, hu, rfl⟩ := List.mem_map.mp ht
        exact (isWhole_append_left isSeparator_comma hspace).mpr
          (hwhole u (List.mem_cons_of_mem first hu))
    rw [← intercalate_spacedRest]
    exact splitTopLevel_intercalate isSeparator_comma (List.cons_ne_nil _ _) hwhole'

/-- The pieces of the arguments are found again. -/
theorem argumentTexts_intercalate {texts : List Text} (hwhole : ∀ t ∈ texts, IsWhole ',' t)
    (hink : ∀ t ∈ texts, Text.allBlank t = false) :
    argumentTexts (List.intercalate [',', ' '] texts) = some (spacedRest texts) := by
  cases texts with
  | nil => rfl
  | cons first rest =>
    have hink' : ∀ t ∈ spacedRest (first :: rest), Text.allBlank t = false := by
      intro t ht
      rcases List.mem_cons.mp ht with rfl | ht
      · exact hink t List.mem_cons_self
      · obtain ⟨u, hu, rfl⟩ := List.mem_map.mp ht
        show (Text.isBlank ' ' && Text.allBlank u) = false
        rw [hink u (List.mem_cons_of_mem first hu), Bool.and_false]
    rw [argumentTexts, splitTopLevel_spaced (List.cons_ne_nil first rest) hwhole, Option.map_some,
      List.filter_eq_self.mpr (fun t ht => by simp [hink' t ht])]

theorem hasInkAtEnds_argumentList (texts : Option (List Text)) :
    (argumentList texts).HasInkAtEnds := by
  cases texts with
  | none => exact Text.hasInkAtEnds_nil
  | some texts => exact Text.hasInkAtEnds_enclosed (by decide) (by decide) _

/-! ## Calls -/

/-- The text of a call, from the texts of its arguments. -/
def callText (name : Text) (typeArgs : Option Text) (texts : Option (List Text)) : Text :=
  name ++ (renderTypeArgs typeArgs ++ argumentList texts)

/-- The parts of a call that is written so that it can be read back. -/
structure AreCallParts (name : Text) (typeArgs : Option Text) (texts : Option (List Text)) :
    Prop where
  name : IsName name
  typeArgs : ∀ t, typeArgs = some t → IsDelimited t
  isWhole : ∀ ts, texts = some ts → ∀ t ∈ ts, IsWhole ',' t
  hasInk : ∀ ts, texts = some ts → ∀ t ∈ ts, Text.allBlank t = false

namespace AreCallParts

variable {name : Text} {typeArgs : Option Text} {texts : Option (List Text)}
  (h : AreCallParts name typeArgs texts)

include h

theorem isBalanced_arguments {ts : List Text} (hts : texts = some ts) :
    IsBalanced (List.intercalate [',', ' '] ts) :=
  isBalanced_intercalate fun t ht => (h.isWhole ts hts t ht).isBalanced

theorem ne_nil : callText name typeArgs texts ≠ [] := by
  intro hnil
  exact h.name.ne_nil (List.append_eq_nil_iff.mp hnil).1

theorem hasInkAtEnds : (callText name typeArgs texts).HasInkAtEnds := by
  have hafter := (hasInkAtEnds_renderTypeArgs typeArgs).append (hasInkAtEnds_argumentList texts)
  exact h.name.hasInkAtEnds.append hafter

/-- The scanner passes over the call and is done behind it. -/
theorem isPassable {separator : Char} (hseparator : separator = '.' ∨ separator = ',') :
    IsPassable separator (callText name typeArgs texts) := by
  intro previous
  have hsep := isSeparator_dot_or_comma hseparator
  -- name, generic arguments and argument list each lead from outside to outside
  have hname := passes_ordinary (h.name.isOrdinary hsep) previous
  obtain ⟨previous', htypeArgs⟩ : ∃ previous',
      Passes separator ⟨.outside, 0, name.getLast?.or previous⟩ (renderTypeArgs typeArgs)
        ⟨.outside, 0, previous'⟩ := by
    cases htypeArgs : typeArgs with
    | none => exact ⟨_, .nil _⟩
    | some t =>
      have hdelimited := h.typeArgs t htypeArgs
      exact ⟨_, hdelimited.passes hseparator (h.name.endsName_getLast previous)⟩
  obtain ⟨previous'', harguments⟩ : ∃ previous'',
      Passes separator ⟨.outside, 0, previous'⟩ (argumentList texts)
        ⟨.outside, 0, previous''⟩ := by
    cases htexts : texts with
    | none => exact ⟨_, .nil _⟩
    | some ts => exact ⟨_, passes_bracketed rfl (h.isBalanced_arguments htexts) hsep 0 previous'⟩
  exact ⟨_, hname.append (htypeArgs.append harguments)⟩

/-! ### Reading -/

theorem readArguments_eq :
    CallText.readArguments name typeArgs (argumentList texts) =
      some ⟨name, typeArgs, texts.map (List.intercalate [',', ' '])⟩ := by
  cases htexts : texts with
  | none => rfl
  | some ts =>
    have hparens : closerOf '(' = some ')' := rfl
    have hclose := matchingClose_bracketed hparens (h.isBalanced_arguments htexts)
    have hread : ∀ inner : Text, CallText.readArguments name typeArgs ('(' :: inner) =
        if matchingClose ('(' :: inner) 0 = some inner.length then
          some ⟨name, typeArgs, some inner.dropLast⟩ else none := fun _ => rfl
    show CallText.readArguments name typeArgs
      ('(' :: (List.intercalate [',', ' '] ts ++ [')'])) = _
    rw [hread, if_pos hclose, List.dropLast_concat]
    rfl

theorem readAfterName_eq :
    CallText.readAfterName name (renderTypeArgs typeArgs ++ argumentList texts) =
      some ⟨name, typeArgs, texts.map (List.intercalate [',', ' '])⟩ := by
  have hread := h.readArguments_eq
  cases htypeArgs : typeArgs with
  | none =>
    rw [htypeArgs] at hread
    rw [← hread]
    cases texts <;> rfl
  | some t =>
    rw [htypeArgs] at hread
    have hdelimited := h.typeArgs t htypeArgs
    have htrim := hdelimited.trim_eq_self
    have hangle := hdelimited.matchingAngle_eq (argumentList texts)
    have hshape : renderTypeArgs (some t) ++ argumentList texts =
        '<' :: (t ++ '>' :: argumentList texts) := by
      simp [renderTypeArgs]
    have htake : (('<' :: (t ++ '>' :: argumentList texts)).take (t.length + 1)).drop 1 = t := by
      simp
    have hdrop : ('<' :: (t ++ '>' :: argumentList texts)).drop (t.length + 1 + 1) =
        argumentList texts := by
      simp
    rw [hshape, CallText.readAfterName]
    simp only [hangle, htake, hdrop, htrim, (hasInkAtEnds_argumentList texts).trim_eq_self]
    exact hread

/-- The name ends where something else begins. -/
theorem head?_afterName {c : Char}
    (hc : (renderTypeArgs typeArgs ++ argumentList texts).head? = some c) :
    continuesName c = false := by
  cases typeArgs with
  | some t =>
    cases hc
    decide
  | none =>
    cases texts with
    | none => cases hc
    | some ts =>
      cases hc
      decide

theorem callTextRead_eq : CallText.read? (callText name typeArgs texts) =
    some ⟨name, typeArgs, texts.map (List.intercalate [',', ' '])⟩ := by
  have hink := (hasInkAtEnds_renderTypeArgs typeArgs).append (hasInkAtEnds_argumentList texts)
  have hname := h.name
  have hread := h.readAfterName_eq
  obtain ⟨first, rest, rfl⟩ := List.exists_cons_of_ne_nil h.name.ne_nil
  obtain ⟨htake, hdrop⟩ := span_append hname.2 fun c hc => h.head?_afterName hc
  rw [callText, List.cons_append, CallText.read?, if_pos hname.1, htake, hdrop, hink.trim_eq_self]
  exact hread

/-- **Reading a call.** The parts of a call are found again in its text. -/
theorem read?_eq : CallOutline.read? (callText name typeArgs texts) =
    some ⟨name, typeArgs, texts.map spacedRest⟩ := by
  unfold CallOutline.read?
  rw [h.callTextRead_eq]
  cases htexts : texts with
  | none => rfl
  | some ts =>
    show (argumentTexts (List.intercalate [',', ' '] ts)).map _ = _
    rw [argumentTexts_intercalate (h.isWhole ts htexts) (h.hasInk ts htexts)]
    rfl

end AreCallParts

end Expression

end ModelSchemas

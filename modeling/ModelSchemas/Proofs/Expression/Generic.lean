import ModelSchemas.Proofs.Expression.Cutting
import ModelSchemas.Proofs.Expression.Reading

/-!
# Generic arguments

Generic arguments are read as text up to the angle bracket that closes them, while the scanner also
minds the quotes and brackets in them. They are delimited if both agree, so that they may stand
behind any name. Plain ones are, and so are nested ones; what is left after trimming may not be.
-/

namespace ModelSchemas

namespace Expression

open Scanner

/-! ## Delimited generic arguments -/

/-- A name that carries generic arguments. -/
def carrier (t : Text) : Text := '_' :: renderTypeArgs (some t)

/-- A name that carries these generic arguments is read as one call with them, and is cut neither at
a dot nor at a comma. -/
structure IsDelimited (t : Text) : Prop where
  read : CallText.read? (carrier t) = some ⟨['_'], some t, none⟩
  dot : splitTopLevel '.' (carrier t) = some [carrier t]
  comma : splitTopLevel ',' (carrier t) = some [carrier t]

theorem hasInkAtEnds_renderTypeArgs (typeArgs : Option Text) :
    (renderTypeArgs typeArgs).HasInkAtEnds := by
  cases typeArgs with
  | none => exact Text.hasInkAtEnds_nil
  | some t => exact Text.hasInkAtEnds_enclosed (by decide) (by decide) _

/-- Reading a name with generic arguments. -/
theorem read?_carrier (t : Text) :
    CallText.read? (carrier t) = CallText.readAfterName ['_'] ('<' :: (t ++ ['>'])) := by
  have htrim := (hasInkAtEnds_renderTypeArgs (some t)).trim_eq_self
  rw [renderTypeArgs, List.cons_append] at htrim
  have hstart : startsName '_' = true := by decide
  have hstop : ¬continuesName '<' = true := by decide
  rw [carrier, renderTypeArgs, List.cons_append, CallText.read?, if_pos hstart,
    List.takeWhile_cons_of_neg hstop, List.dropWhile_cons_of_neg hstop, htrim]

/-! ## Where they end -/

/-- What follows a closed list of generic arguments does not matter. -/
theorem angleOffset_append {depth : Int} {previous : Option Char} {t : Text} {offset : Nat}
    (h : angleOffset depth previous t = some offset) (rest : Text) :
    angleOffset depth previous (t ++ rest) = some offset := by
  induction t generalizing depth previous offset with
  | nil => cases h
  | cons c t ih =>
    have hbehind : ∀ {depth : Int}, (angleOffset depth (some c) t).map (· + 1) = some offset →
        (angleOffset depth (some c) (t ++ rest)).map (· + 1) = some offset := by
      intro depth hmap
      obtain ⟨behind, hbehind, rfl⟩ := Option.map_eq_some_iff.mp hmap
      rw [ih hbehind, Option.map_some]
    rw [List.cons_append]
    rw [angleOffset] at h ⊢
    split_ifs at h ⊢
    · exact hbehind h
    · exact h
    · exact hbehind h
    · exact hbehind h

/-- Without an argument list nothing stands behind the generic arguments. -/
theorem readArguments_without_argText {name rest : Text} {typeArgs : Option Text} {c : CallText}
    (h : CallText.readArguments name typeArgs rest = some c) (hnone : c.argText = none) :
    rest = [] := by
  unfold CallText.readArguments at h
  split at h
  · rfl
  · split_ifs at h
    cases h
    cases hnone
  · cases h

namespace IsDelimited

variable {t : Text} (h : IsDelimited t)

include h

theorem trim_eq_self : Text.trim t = t := (CallText.read?_eq_some h.read).2.1 t rfl

/-- The generic arguments end where they were closed, whatever stands behind them. -/
theorem matchingAngle_eq (rest : Text) :
    matchingAngle ('<' :: (t ++ '>' :: rest)) = some (t.length + 1) := by
  have hread := h.read
  rw [read?_carrier, CallText.readAfterName] at hread
  cases hclose : matchingAngle ('<' :: (t ++ ['>'])) with
  | none =>
    rw [hclose] at hread
    cases hread
  | some close =>
    simp only [hclose] at hread
    have hbehind := Text.trim_eq_nil_iff.mp (readArguments_without_argText hread rfl)
    obtain ⟨hlt, -⟩ := List.getElem?_eq_some_iff.mp (getElem?_of_angleOffset hclose)
    rw [List.length_cons, List.length_append, List.length_singleton] at hlt
    have hend : close = t.length + 1 := by
      by_contra hne
      -- otherwise the last bracket would be among the blanks behind
      have hmem : '>' ∈ ('<' :: (t ++ ['>'])).drop (close + 1) := by
        rw [List.drop_succ_cons, List.drop_append_of_le_length (by omega)]
        exact List.mem_append_right _ List.mem_cons_self
      have hblank := List.all_eq_true.mp hbehind '>' hmem
      exact absurd hblank (by decide)
    have happend := angleOffset_append hclose rest
    rw [List.cons_append, List.append_assoc, List.singleton_append, hend] at happend
    exact happend

end IsDelimited

/-! ## How the scanner passes over them -/

theorem isSeparator_dot_or_comma {separator : Char} (h : separator = '.' ∨ separator = ',') :
    IsSeparator separator := by
  rcases h with rfl | rfl
  · exact isSeparator_dot
  · exact isSeparator_comma

theorem previous_of_passes {separator : Char} {s last : Scanner} {t : Text} {c : Char}
    (h : Passes separator s (t ++ [c]) last) : last.previous = some c := by
  obtain ⟨mid, -, hlast⟩ := h.of_append
  cases hlast with
  | cons _ hstep hrest =>
    cases hrest
    obtain ⟨nesting, -, rfl⟩ := Option.map_eq_some_iff.mp hstep
    rfl

/-- The scanner is outside again behind delimited generic arguments that follow a name. -/
theorem IsDelimited.passes {separator : Char} (hseparator : separator = '.' ∨ separator = ',')
    {t : Text} (h : IsDelimited t) {previous : Option Char} (hprevious : previous.any endsName) :
    Passes separator ⟨.outside, 0, previous⟩ ('<' :: t ++ ['>']) ⟨.outside, 0, some '>'⟩ := by
  have hsep := isSeparator_dot_or_comma hseparator
  have hsplit : splitTopLevel separator (carrier t) = some [carrier t] := by
    rcases hseparator with rfl | rfl
    · exact h.dot
    · exact h.comma
  obtain ⟨last, hpass, hdone⟩ := (isWhole_iff_split hsep).mpr hsplit
  have hlast : last = ⟨.outside, 0, some '>'⟩ := by
    obtain ⟨nesting, angles, previous⟩ := last
    obtain ⟨hnesting, hangles⟩ := isDone_iff.mp hdone
    have hprevious : previous = some '>' := previous_of_passes (t := '_' :: '<' :: t) hpass
    simp only at hnesting hangles
    rw [hnesting, hangles, hprevious]
  rw [hlast] at hpass
  -- the name that carries them matters only in that it is one
  cases hpass with
  | cons _ hname hpass =>
    have hunderscore : Scanner.start.step '_' = some ⟨.outside, 0, some '_'⟩ :=
      step_outside (by decide) (by decide) (by decide)
    cases hname.symm.trans hunderscore
    cases hpass with
    | cons hcut hless hinside =>
      have hless' : (⟨.outside, 0, some '_'⟩ : Scanner).step '<' = some ⟨.outside, 1, some '<'⟩ :=
        step_less (by decide)
      cases hless.symm.trans hless'
      exact .cons (cuts_of_ne hsep.ne_less.symm) (step_less hprevious) hinside

/-! ## Plain generic arguments -/

/-- Generic arguments that are trimmed and free of angle brackets, equals signs, quotes and
brackets. -/
def IsPlainTypeArgs (t : Text) : Prop := Text.trim t = t ∧ IsPlainInside t

theorem angleOffset_of_isPlainInside {t : Text} (h : IsPlainInside t) {previous : Option Char}
    (hprevious : previous ≠ some '=') (rest : Text) :
    angleOffset 1 previous (t ++ '>' :: rest) = some t.length := by
  induction t generalizing previous with
  | nil => simp [angleOffset, hprevious]
  | cons c t ih =>
    obtain ⟨-, hless, hgreater, hequals⟩ := h c List.mem_cons_self
    have hprevious' : some c ≠ some '=' := by simpa using hequals
    have hrest := ih (fun d hd => h d (List.mem_cons_of_mem c hd)) hprevious'
    simp [angleOffset, hless, hgreater, hrest]

/-- The generic arguments end where they were closed. -/
theorem matchingAngle_typeArgs {t : Text} (h : IsPlainInside t) (rest : Text) :
    matchingAngle ('<' :: (t ++ '>' :: rest)) = some (t.length + 1) := by
  have hprevious : some '<' ≠ some '=' := by decide
  have hinside := angleOffset_of_isPlainInside h hprevious rest
  simp [matchingAngle, angleOffset, hinside]

theorem isWhole_carrier {separator : Char} (hsep : IsSeparator separator) {t : Text}
    (h : IsPlainInside t) : IsWhole separator (carrier t) := by
  have hunderscore : Scanner.start.step '_' = some ⟨.outside, 0, some '_'⟩ :=
    step_outside (by decide) (by decide) (by decide)
  have hne : '_' ≠ separator := by
    rintro rfl
    exact absurd hsep.endsName (by decide)
  exact ⟨_, .cons (cuts_of_ne hne) hunderscore (passes_typeArgs hsep (by decide) h), rfl⟩

/-- Plain generic arguments are delimited. -/
theorem IsPlainTypeArgs.isDelimited {t : Text} (h : IsPlainTypeArgs t) : IsDelimited t where
  read := by
    have hclose := matchingAngle_typeArgs h.2 []
    have htake : (('<' :: (t ++ ['>'])).take (t.length + 1)).drop 1 = t := by simp
    have hdrop : ('<' :: (t ++ ['>'])).drop (t.length + 1 + 1) = [] := by simp
    rw [read?_carrier, CallText.readAfterName]
    simp only [hclose, htake, hdrop, h.1]
    rfl
  dot := (isWhole_carrier isSeparator_dot h.2).split
  comma := (isWhole_carrier isSeparator_comma h.2).split

end Expression

end ModelSchemas

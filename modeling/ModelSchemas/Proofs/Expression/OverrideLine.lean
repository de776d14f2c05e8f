import ModelSchemas.Expression.Override
import ModelSchemas.Proofs.Expression.CallText

/-!
# Override lines

The first line of a documentation carries an override when it starts with a marker, when nothing but
a blank or a dot stands directly behind that, and when blanks and one dot are not all that follows.
The lines that are recognised are these and those where some other mark that no name holds stands
behind the marker.
-/

namespace ModelSchemas

namespace Text

/-! ## First lines -/

theorem firstLine_cons_of_break {c : Char} (h : isLineBreak c) (rest : Text) :
    firstLine (c :: rest) = [] :=
  List.takeWhile_cons_of_neg (by simp [h])

theorem firstLine_cons {c : Char} (h : ¬isLineBreak c) (rest : Text) :
    firstLine (c :: rest) = c :: firstLine rest :=
  List.takeWhile_cons_of_pos (by simp [h])

/-- A text that is not empty starts with its first line. -/
theorem head?_lines {t : Text} (hne : t ≠ []) : (lines t).head? = some (firstLine t) := by
  induction t using lines.induct with
  | case1 => exact absurd rfl hne
  | case2 rest ih => rfl
  | case3 c rest hreturn hbreak ih =>
    rw [lines.eq_3 c rest hreturn, if_pos hbreak, firstLine_cons_of_break hbreak]
    rfl
  | case4 c rest hreturn hbreak hnil ih =>
    -- a text without lines is empty
    have hrest : rest = [] := by
      by_contra hne
      rw [hnil] at ih
      cases ih hne
    subst hrest
    rw [lines.eq_3 c [] hreturn, if_neg hbreak, firstLine_cons hbreak]
    rfl
  | case5 c rest hreturn hbreak line more hlines ih =>
    have hne : rest ≠ [] := by
      rintro rfl
      cases hlines
    have hhead := ih hne
    rw [hlines] at hhead
    obtain rfl : line = firstLine rest := Option.some.inj hhead
    rw [lines.eq_3 c rest hreturn, if_neg hbreak, firstLine_cons hbreak, hlines]
    rfl

theorem isLineBreak_of_mem_firstLine {t : Text} {c : Char} (h : c ∈ firstLine t) :
    isLineBreak c = false := by
  simpa using List.mem_takeWhile_imp h

/-! ## Texts that are not blank -/

/-- A text without the blanks at its ends, if anything else is in it. -/
def nonBlank? (t : Text) : Option Text :=
  match trim t with
  | [] => none
  | trimmed => some trimmed

theorem nonBlank?_eq_some_iff {t trimmed : Text} :
    nonBlank? t = some trimmed ↔ trim t = trimmed ∧ trimmed ≠ [] := by
  unfold nonBlank?
  split
  · rename_i hnil
    rw [hnil]
    constructor
    · intro h
      cases h
    · rintro ⟨rfl, hne⟩
      exact absurd rfl hne
  · rename_i hne
    constructor
    · intro h
      cases h
      exact ⟨rfl, hne⟩
    · rintro ⟨rfl, -⟩
      rfl

theorem nonBlank?_trim (t : Text) : nonBlank? (trim t) = nonBlank? t := by
  rw [nonBlank?, trim_trim, nonBlank?]

theorem nonBlank?_eq_none {t : Text} (h : allBlank t) : nonBlank? t = none := by
  rw [nonBlank?, trim_eq_nil_iff.mpr h]

end Text

namespace Expression

open Text

/-! ## What follows the marker -/

/-- The markers of an override. -/
def overrideMarkers : List Text := ["@zod", "@z"]

/-- The text `rest` is left of `after` when the blanks at its start and one dot behind them are
taken off, as far as there are any. -/
def Leaves (after rest : Text) : Prop :=
  ∃ blanks dot, after = blanks ++ (dot ++ rest) ∧ allBlank blanks ∧
    (dot = ['.'] ∨ dot = [] ∧ ∀ c ∈ rest.head?, isBlank c = false ∧ c ≠ '.')

/-- A line with a marker, directly behind which stands nothing or a character that may follow it,
and with a body behind the blanks and the dot. -/
def IsOverrideLine (mayFollow : Char → Prop) (line body : Text) : Prop :=
  ∃ marker ∈ overrideMarkers, ∃ after rest, line = marker ++ after ∧
    (∀ c ∈ after.head?, mayFollow c) ∧ Leaves after rest ∧ trim rest = body ∧ body ≠ []

/-- A blank or a dot ends the marker. -/
def EndsMarker (c : Char) : Prop := isBlank c = true ∨ c = '.'

/-- Some other character that no name holds. -/
def IsOtherMark (c : Char) : Prop := ¬EndsMarker c ∧ continuesName c = false

/-- Taking off blanks and a dot leaves one text. -/
theorem leaves_iff {after rest : Text} : Leaves after rest ↔ dropLeadingDot after = rest := by
  constructor
  · rintro ⟨blanks, dot, rfl, hblanks, hdot⟩
    have hstart : ∀ t : Text, (∀ c ∈ t.head?, isBlank c = false) → trimStart (blanks ++ t) = t := by
      intro t ht
      exact (span_append (List.all_eq_true.mp hblanks) ht).2
    rcases hdot with rfl | ⟨rfl, hrest⟩
    · rw [dropLeadingDot, hstart _ (by simp; decide)]
      rfl
    · rw [dropLeadingDot, List.nil_append, hstart rest fun c hc => (hrest c hc).1]
      cases rest with
      | nil => rfl
      | cons c rest =>
        have hc : c ≠ '.' := (hrest c rfl).2
        simp [hc]
  · rintro rfl
    have hparts := leadingBlanks_append_trimStart after
    have hblanks : allBlank (leadingBlanks after) := List.all_takeWhile
    unfold dropLeadingDot
    split
    · rename_i rest hrest
      rw [hrest] at hparts
      exact ⟨_, ['.'], hparts.symm, hblanks, .inl rfl⟩
    · rename_i hdot
      refine ⟨_, [], hparts.symm, hblanks, .inr ⟨rfl, fun c hc => ⟨head?_trimStart hc, ?_⟩⟩⟩
      rintro rfl
      obtain ⟨rest, hrest⟩ := List.head?_eq_some_iff.mp hc
      exact hdot rest hrest

/-! ## Reading the marker -/

theorem afterMarker?_eq_some_iff {marker line after : Text} :
    afterMarker? marker line = some after ↔
      line = marker ++ after ∧ ∀ c ∈ after.head?, continuesName c = false := by
  have hword : ∀ t : Text, t.head?.any continuesName = false ↔
      ∀ c ∈ t.head?, continuesName c = false := by
    intro t
    cases t <;> simp
  unfold afterMarker?
  constructor
  · intro h
    split at h
    · rename_i hprefix
      obtain ⟨rest, rfl⟩ := List.isPrefixOf_iff_prefix.mp hprefix
      rw [List.drop_left] at h
      dsimp only at h
      split_ifs at h with hany
      cases h
      exact ⟨rfl, (hword after).mp (by simpa using hany)⟩
    · cases h
  · rintro ⟨rfl, hafter⟩
    rw [if_pos (List.isPrefixOf_iff_prefix.mpr (List.prefix_append marker after)), List.drop_left]
    dsimp only
    rw [(hword after).mpr hafter, if_neg Bool.false_ne_true]

/-- One marker is the start of the other, but not as a whole word. -/
theorem after_unique {marker marker' after after' : Text} (hmarker : marker ∈ overrideMarkers)
    (hmarker' : marker' ∈ overrideMarkers) (h : ∀ c ∈ after.head?, continuesName c = false)
    (h' : ∀ c ∈ after'.head?, continuesName c = false) (heq : marker ++ after = marker' ++ after') :
    after = after' := by
  have hlong : ∀ t u : Text, "@zod".toList ++ t = "@z".toList ++ u → u.head? = some 'o' := by
    intro t u htu
    have hu : "@z".toList ++ 'o' :: 'd' :: t = "@z".toList ++ u := htu
    rw [← List.append_cancel_left hu, List.head?_cons]
  have hname : continuesName 'o' = true := by decide
  simp only [overrideMarkers, List.mem_cons, List.not_mem_nil, or_false] at hmarker hmarker'
  rcases hmarker with rfl | rfl <;> rcases hmarker' with rfl | rfl
  · exact List.append_cancel_left heq
  · have hfalse := h' 'o' (hlong after after' heq)
    rw [hname] at hfalse
    cases hfalse
  · have hfalse := h 'o' (hlong after' after heq.symm)
    rw [hname] at hfalse
    cases hfalse
  · exact List.append_cancel_left heq

/-- What follows the marker of a line, whichever of the two it is. -/
theorem afterMarker?_or_eq_some_iff {line after : Text} :
    (afterMarker? "@zod" line).or (afterMarker? "@z" line) = some after ↔
      ∃ marker ∈ overrideMarkers, line = marker ++ after ∧
        ∀ c ∈ after.head?, continuesName c = false := by
  have hfound : ∀ {after : Text}, (afterMarker? "@zod" line).or (afterMarker? "@z" line) =
      some after → ∃ marker ∈ overrideMarkers, afterMarker? marker line = some after := by
    intro after h
    rcases Option.or_eq_some_iff.mp h with h | ⟨-, h⟩
    · exact ⟨"@zod", List.mem_cons_self, h⟩
    · exact ⟨"@z", List.mem_cons_of_mem _ List.mem_cons_self, h⟩
  constructor
  · intro h
    obtain ⟨marker, hmarker, hafter⟩ := hfound h
    exact ⟨marker, hmarker, afterMarker?_eq_some_iff.mp hafter⟩
  · rintro ⟨marker, hmarker, hline⟩
    have hafter := afterMarker?_eq_some_iff.mpr hline
    -- one of the markers is found, and what follows it does not depend on which
    obtain ⟨found, hor⟩ : ∃ found,
        (afterMarker? "@zod" line).or (afterMarker? "@z" line) = some found := by
      simp only [overrideMarkers, List.mem_cons, List.not_mem_nil, or_false] at hmarker
      rcases hmarker with rfl | rfl
      · exact ⟨after, by rw [hafter, Option.some_or]⟩
      · rw [hafter]
        cases afterMarker? "@zod" line with
        | none => exact ⟨after, rfl⟩
        | some found => exact ⟨found, rfl⟩
    obtain ⟨marker', hmarker', hfoundAfter⟩ := hfound hor
    obtain ⟨hline', hword'⟩ := afterMarker?_eq_some_iff.mp hfoundAfter
    rw [hor, after_unique hmarker hmarker' hline.2 hword' (hline.1.symm.trans hline')]

/-- **Override lines.** The body that is read behind a marker is the body of the line, where the
marker is a whole word. -/
theorem overrideBody?_eq_some_iff {line body : Text} :
    overrideBody? line = some body ↔
      IsOverrideLine (fun c => continuesName c = false) line body := by
  unfold overrideBody? IsOverrideLine
  constructor
  · intro h
    split at h
    · cases h
    · rename_i after hafter
      obtain ⟨marker, hmarker, hline, hword⟩ := afterMarker?_or_eq_some_iff.mp hafter
      exact ⟨marker, hmarker, after, _, hline, hword, leaves_iff.mpr rfl,
        nonBlank?_eq_some_iff.mp h⟩
  · rintro ⟨marker, hmarker, after, rest, hline, hword, hrest, hleft⟩
    obtain rfl := leaves_iff.mp hrest
    rw [afterMarker?_or_eq_some_iff.mpr ⟨marker, hmarker, hline, hword⟩]
    exact nonBlank?_eq_some_iff.mpr hleft

/-! ## Which lines are recognised -/

theorem continuesName_of_endsMarker {c : Char} (h : EndsMarker c) : continuesName c = false := by
  rcases h with hblank | rfl
  · exact continuesName_of_isBlank hblank
  · decide

/-- The characters that may stand behind a whole word are those that end a marker and the other
marks. -/
theorem continuesName_eq_false_iff {c : Char} :
    continuesName c = false ↔ EndsMarker c ∨ IsOtherMark c := by
  constructor
  · intro h
    by_cases hends : EndsMarker c
    · exact .inl hends
    · exact .inr ⟨hends, h⟩
  · rintro (hends | ⟨-, h⟩)
    · exact continuesName_of_endsMarker hends
    · exact h

theorem IsOverrideLine.imp {mayFollow mayFollow' : Char → Prop} {line body : Text}
    (h : IsOverrideLine mayFollow line body) (himp : ∀ c, mayFollow c → mayFollow' c) :
    IsOverrideLine mayFollow' line body := by
  obtain ⟨marker, hmarker, after, rest, hline, hfollow, hrest⟩ := h
  exact ⟨marker, hmarker, after, rest, hline, fun c hc => himp c (hfollow c hc), hrest⟩

/-- A line that may go on in two ways goes on in one of them: it does not end with its marker. -/
theorem isOverrideLine_or_iff {mayFollow mayFollow' : Char → Prop} {line body : Text} :
    IsOverrideLine (fun c => mayFollow c ∨ mayFollow' c) line body ↔
      IsOverrideLine mayFollow line body ∨ IsOverrideLine mayFollow' line body := by
  constructor
  · rintro ⟨marker, hmarker, after, rest, hline, hfollow, hrest⟩
    cases after with
    | nil => exact .inl ⟨marker, hmarker, [], rest, hline, by simp, hrest⟩
    | cons c after =>
      have hother : ∀ {p : Char → Prop}, p c → ∀ d ∈ (c :: after).head?, p d := by
        intro p hc d hd
        cases hd
        exact hc
      rcases hfollow c rfl with hc | hc
      · exact .inl ⟨marker, hmarker, c :: after, rest, hline, hother hc, hrest⟩
      · exact .inr ⟨marker, hmarker, c :: after, rest, hline, hother hc, hrest⟩
  · rintro (h | h)
    · exact h.imp fun c => .inl
    · exact h.imp fun c => .inr

/-- No line goes on in two ways. -/
theorem not_endsMarker_of_isOtherMark {line body body' : Text}
    (h : IsOverrideLine IsOtherMark line body) : ¬IsOverrideLine EndsMarker line body' := by
  rintro ⟨marker', hmarker', after', rest', hline', hfollow', hrest'⟩
  obtain ⟨marker, hmarker, after, rest, hline, hfollow, hrest, htrim, hne⟩ := h
  have hafter : after = after' :=
    after_unique hmarker hmarker' (fun c hc => (hfollow c hc).2)
      (fun c hc => continuesName_of_endsMarker (hfollow' c hc)) (hline.symm.trans hline')
  subst hafter
  cases after with
  | nil =>
    obtain rfl := leaves_iff.mp hrest
    exact hne htrim.symm
  | cons c after => exact (hfollow c rfl).1 (hfollow' c rfl)

/-! ## Documentation -/

/-- The first line of a documentation without blanks at either end, if there is a documentation that
is not blank. -/
def documentationLine? (documentation : Option Text) : Option Text :=
  (documentation.bind fun d => (lines (trim d)).head?).map trim

/-- The first line of the documentation is an override line. -/
def HasOverrideLine (mayFollow : Char → Prop) (documentation : Option Text) : Prop :=
  ∃ line ∈ documentationLine? documentation, ∃ body, IsOverrideLine mayFollow line body

/-- An override is what the body of the first line stands for. -/
theorem extractOverride_eq (documentation : Option Text) :
    documentation.bind extractOverride =
      ((documentationLine? documentation).bind overrideBody?).map overrideExpression := by
  cases documentation with
  | none => rfl
  | some d =>
    rw [documentationLine?, Option.bind_some, Option.bind_some, extractOverride]
    by_cases hblank : trim d = []
    · rw [hblank]
      rfl
    · rw [head?_lines hblank]
      rfl

/-- **Recognition.** A documentation gives an override exactly if its first line has a marker with a
body behind it, and a blank or a dot stands directly behind the marker, or some other mark that no
name holds. The two kinds of line have nothing in common. -/
theorem override_recognised_iff (documentation : Option Text) :
    ((documentation.bind extractOverride).isSome = true ↔
      HasOverrideLine EndsMarker documentation ∨ HasOverrideLine IsOtherMark documentation) ∧
    ¬(HasOverrideLine EndsMarker documentation ∧ HasOverrideLine IsOtherMark documentation) := by
  have hbody : ∀ line, (overrideBody? line).isSome = true ↔
      (∃ body, IsOverrideLine EndsMarker line body) ∨
        ∃ body, IsOverrideLine IsOtherMark line body := by
    intro line
    rw [Option.isSome_iff_exists, ← exists_or]
    refine exists_congr fun body => ?_
    rw [overrideBody?_eq_some_iff, ← isOverrideLine_or_iff]
    simp only [continuesName_eq_false_iff]
  constructor
  · rw [extractOverride_eq, Option.isSome_map]
    unfold HasOverrideLine
    cases documentationLine? documentation with
    | none => simp
    | some line => simpa using hbody line
  · rintro ⟨⟨line, hline, body, hends⟩, line', hline', body', hother⟩
    obtain rfl := Option.mem_unique hline hline'
    exact not_endsMarker_of_isOtherMark hother hends

/-- A documentation of prose that starts like a marker. -/
def prose : Text := "@z-index of the layer"

theorem isOverrideLine_prose :
    prose ∈ documentationLine? (some prose) ∧
      IsOverrideLine IsOtherMark prose "-index of the layer" := by
  refine ⟨by decide, "@z", by decide, "-index of the layer", "-index of the layer", by decide, ?_,
    ?_, by decide, by decide⟩
  · intro c hc
    cases hc
    refine ⟨?_, by decide⟩
    rintro (hblank | hdot)
    · exact absurd hblank (by decide)
    · exact absurd hdot (by decide)
  · exact leaves_iff.mpr (by decide)

/-- Prose is taken for an override, though neither a blank nor a dot ends the marker. -/
theorem prose_recognised :
    (extractOverride prose).isSome = true ∧ ¬HasOverrideLine EndsMarker (some prose) := by
  obtain ⟨hline, hbody⟩ := isOverrideLine_prose
  constructor
  · decide +kernel
  · rintro ⟨line, hline', body, hends⟩
    obtain rfl := Option.mem_unique hline hline'
    exact not_endsMarker_of_isOtherMark hbody hends

end Expression

end ModelSchemas

import Mathlib.Data.List.Forall2
import ModelSchemas.Expression.Parse
import ModelSchemas.Proofs.Expression.Whole

/-!
# One level of reading

What an outline is made of: names, trimmed generic arguments, and for every argument a whole text
that is shorter than the text it stands in. Hence all levels of a text can be read, and `parse` is
the reading that repeats itself in the arguments.
-/

namespace ModelSchemas

namespace Expression

/-! ## Lists of results -/

theorem mapM_eq_some_iff {α β : Type} {f : α → Option β} {xs : List α} {ys : List β} :
    xs.mapM f = some ys ↔ List.Forall₂ (fun x y => f x = some y) xs ys := by
  induction xs generalizing ys with
  | nil =>
    rw [List.forall₂_nil_left_iff]
    exact ⟨fun h => (Option.some.inj h).symm, fun h => congrArg some h.symm⟩
  | cons x xs ih =>
    rw [List.mapM_cons, List.forall₂_cons_left_iff]
    cases hx : f x with
    | none => simp
    | some y =>
      cases hxs : xs.mapM f with
      | none =>
        have hnone : ∀ zs, ¬ List.Forall₂ (fun x y => f x = some y) xs zs := by
          intro zs hzs
          rw [hxs] at ih
          cases ih.mpr hzs
        simp [hnone]
      | some zs =>
        simp only [hxs, Option.some.injEq] at ih
        simp [← ih, eq_comm]

theorem exists_mem_of_mapM {α β : Type} {f : α → Option β} {xs : List α} {ys : List β}
    (h : xs.mapM f = some ys) : ∀ y ∈ ys, ∃ x ∈ xs, f x = some y := by
  have hrel := mapM_eq_some_iff.mp h
  clear h
  induction hrel with
  | nil => simp
  | cons hxy _ ih =>
    intro z hz
    rcases List.mem_cons.mp hz with rfl | hz
    · exact ⟨_, List.mem_cons_self, hxy⟩
    · obtain ⟨x, hx, hxz⟩ := ih z hz
      exact ⟨x, List.mem_cons_of_mem _ hx, hxz⟩

/-! ## Names -/

/-- The name of a call. -/
def IsName : Text → Prop
  | [] => False
  | c :: rest => startsName c ∧ ∀ d ∈ rest, continuesName d

namespace CallText

/-- What is read behind the generic arguments. -/
theorem readArguments_eq_some {name rest : Text} {typeArgs : Option Text} {c : CallText}
    (h : readArguments name typeArgs rest = some c) :
    c.name = name ∧ c.typeArgs = typeArgs ∧ ∀ text, c.argText = some text →
      text.length < rest.length := by
  unfold readArguments at h
  split at h
  · cases h
    simp
  · split_ifs at h
    cases h
    refine ⟨rfl, rfl, fun text heq => ?_⟩
    obtain rfl := Option.some.inj heq
    simp only [List.length_dropLast, List.length_cons]
    omega
  · cases h

/-- What is read behind the name. -/
theorem readAfterName_eq_some {name rest : Text} {c : CallText}
    (h : readAfterName name rest = some c) :
    c.name = name ∧ (∀ t, c.typeArgs = some t → Text.trim t = t) ∧
      ∀ text, c.argText = some text → text.length < rest.length := by
  unfold readAfterName at h
  split at h
  · rename_i tail
    split at h
    · cases h
    · rename_i close hclose
      obtain ⟨hname, htypeArgs, htext⟩ := readArguments_eq_some h
      refine ⟨hname, ?_, fun text heq => ?_⟩
      · intro t ht
        cases htypeArgs.symm.trans ht
        exact Text.trim_trim _
      · have hlength := htext text heq
        have htrim := Text.length_trim_le (('<' :: tail).drop (close + 1))
        rw [List.length_drop] at htrim
        omega
  · obtain ⟨hname, htypeArgs, htext⟩ := readArguments_eq_some h
    refine ⟨hname, ?_, htext⟩
    intro t ht
    cases htypeArgs.symm.trans ht

theorem read?_eq_some {segment : Text} {c : CallText} (h : read? segment = some c) :
    IsName c.name ∧ (∀ t, c.typeArgs = some t → Text.trim t = t) ∧
      ∀ text, c.argText = some text → text.length < segment.length := by
  unfold read? at h
  split at h
  · cases h
  · rename_i first rest
    split_ifs at h with hstart
    obtain ⟨hname, htypeArgs, htext⟩ := readAfterName_eq_some h
    refine ⟨?_, htypeArgs, fun text heq => ?_⟩
    · rw [hname]
      exact ⟨hstart, fun d hd => List.mem_takeWhile_imp hd⟩
    · have hlength := htext text heq
      have htrim := Text.length_trim_le (rest.dropWhile continuesName)
      have hdrop := Text.length_dropWhile_le continuesName rest
      rw [List.length_cons]
      omega

end CallText

/-! ## Outlines -/

/-- The text of an argument in a text of the given length. -/
structure IsArgumentText (length : Nat) (t : Text) : Prop where
  isWhole : IsWhole ',' t
  hasInk : Text.allBlank t = false
  length_lt : t.length < length

/-- What one level of reading knows about a call in a text of the given length. -/
structure CallOutline.IsReading (length : Nat) (c : CallOutline) : Prop where
  name : IsName c.name
  typeArgs : ∀ t, c.typeArgs = some t → Text.trim t = t
  args : ∀ texts, c.args = some texts → ∀ t ∈ texts, IsArgumentText length t

theorem argumentTexts_eq_some {text : Text} {texts : List Text}
    (h : argumentTexts text = some texts) {length : Nat} (hlength : text.length < length) :
    ∀ t ∈ texts, IsArgumentText length t := by
  obtain ⟨pieces, hpieces, rfl⟩ := Option.map_eq_some_iff.mp h
  intro t ht
  obtain ⟨hmem, hink⟩ := List.mem_filter.mp ht
  obtain ⟨hwhole, hle⟩ := isWhole_of_mem_splitTopLevel isSeparator_comma hpieces t hmem
  exact ⟨hwhole, by simpa using hink, Nat.lt_of_le_of_lt hle hlength⟩

theorem CallOutline.isReading_of_read? {segment : Text} {c : CallOutline}
    (h : CallOutline.read? segment = some c) : c.IsReading segment.length := by
  unfold CallOutline.read? at h
  split at h
  · cases h
  · rename_i name typeArgs hread
    cases h
    obtain ⟨hname, htypeArgs, -⟩ := CallText.read?_eq_some hread
    refine ⟨hname, htypeArgs, fun texts heq => ?_⟩
    cases heq
  · rename_i name typeArgs text hread
    obtain ⟨texts, htexts, rfl⟩ := Option.map_eq_some_iff.mp h
    obtain ⟨hname, htypeArgs, htext⟩ := CallText.read?_eq_some hread
    refine ⟨hname, htypeArgs, fun texts' heq => ?_⟩
    cases heq
    exact argumentTexts_eq_some htexts (htext text rfl)

theorem CallOutline.IsReading.mono {length length' : Nat} {c : CallOutline}
    (h : c.IsReading length) (hle : length ≤ length') : c.IsReading length' := by
  refine ⟨h.name, h.typeArgs, fun texts heq t ht => ?_⟩
  obtain ⟨hwhole, hink, hlt⟩ := h.args texts heq t ht
  exact ⟨hwhole, hink, Nat.lt_of_lt_of_le hlt hle⟩

/-- A blank first segment is no call. -/
theorem Outline.ofSegments_of_allBlank {first : Text} {rest : List Text}
    (h : Text.allBlank first) (hne : rest ≠ []) :
    Outline.ofSegments (first :: rest) =
      (rest.mapM fun segment => CallOutline.read? (Text.trim segment)).map (⟨true, ·⟩) := by
  simp [Outline.ofSegments, h, hne]

/-- Any other first segment is one. -/
theorem Outline.ofSegments_of_hasInk {first : Text} (h : Text.allBlank first = false)
    (rest : List Text) :
    Outline.ofSegments (first :: rest) =
      ((first :: rest).mapM fun segment => CallOutline.read? (Text.trim segment)).map
        (⟨false, ·⟩) := by
  simp only [Outline.ofSegments, h]
  rfl

/-- Blanks at the ends of segments do not matter. -/
theorem Outline.ofSegments_map_trim (segments : List Text) :
    Outline.ofSegments (segments.map Text.trim) = Outline.ofSegments segments := by
  cases segments with
  | nil => rfl
  | cons first rest =>
    rw [List.map_cons, Outline.ofSegments, Outline.ofSegments, Text.allBlank_trim]
    cases Text.allBlank first <;> simp [List.mapM_map, Function.comp_def]

theorem Outline.bind_ofSegments_map_trim (pieces : Option (List Text)) :
    (pieces.map (List.map Text.trim)).bind Outline.ofSegments =
      pieces.bind Outline.ofSegments := by
  cases pieces with
  | none => rfl
  | some segments => exact Outline.ofSegments_map_trim segments

/-- A readable segment behind others is one more call. -/
theorem Outline.ofSegments_concat {segments : List Text} (hne : segments ≠ [])
    (hink : ∀ only, segments = [only] → Text.allBlank only = false) {u : Text} {c : CallOutline}
    (hu : CallOutline.read? (Text.trim u) = some c) :
    Outline.ofSegments (segments ++ [u]) =
      (Outline.ofSegments segments).map fun o => { o with calls := o.calls ++ [c] } := by
  obtain ⟨first, rest, rfl⟩ := List.exists_cons_of_ne_nil hne
  have hmapM : ∀ kept : List Text,
      ((kept ++ [u]).mapM fun segment => CallOutline.read? (Text.trim segment)) =
        (kept.mapM fun segment => CallOutline.read? (Text.trim segment)).map (· ++ [c]) := by
    intro kept
    rw [List.mapM_append, List.mapM_cons, hu]
    cases kept.mapM fun segment => CallOutline.read? (Text.trim segment) <;> rfl
  cases hfirst : Text.allBlank first with
  | true =>
    have hrest : rest ≠ [] := by
      rintro rfl
      rw [hink first rfl] at hfirst
      cases hfirst
    rw [List.cons_append, Outline.ofSegments_of_allBlank hfirst (by simp),
      Outline.ofSegments_of_allBlank hfirst hrest, hmapM, Option.map_map, Option.map_map]
    rfl
  | false =>
    rw [List.cons_append, Outline.ofSegments_of_hasInk hfirst, Outline.ofSegments_of_hasInk hfirst,
      ← List.cons_append, hmapM, Option.map_map, Option.map_map]
    rfl

/-- An outline has calls, and they are read from segments. -/
theorem Outline.ofSegments_eq_some {segments : List Text} {o : Outline}
    (h : Outline.ofSegments segments = some o) :
    o.calls ≠ [] ∧ ∀ c ∈ o.calls, ∃ segment ∈ segments,
      CallOutline.read? (Text.trim segment) = some c := by
  cases segments with
  | nil => cases h
  | cons first rest =>
    have hsub : ∀ segment ∈ (if Text.allBlank first then rest else first :: rest),
        segment ∈ first :: rest := by
      split
      · exact fun segment hsegment => List.mem_cons_of_mem first hsegment
      · exact fun segment hsegment => hsegment
    simp only [Outline.ofSegments] at h
    generalize (if Text.allBlank first then rest else first :: rest) = kept at h hsub
    split_ifs at h with hempty
    obtain ⟨calls, hcalls, rfl⟩ := Option.map_eq_some_iff.mp h
    refine ⟨?_, fun c hc => ?_⟩
    · rintro rfl
      cases mapM_eq_some_iff.mp hcalls
      exact hempty rfl
    · obtain ⟨segment, hsegment, hread⟩ := exists_mem_of_mapM hcalls c hc
      exact ⟨segment, hsub segment hsegment, hread⟩

/-- Blanks at the ends of a text do not matter. -/
theorem outline_congr {t u : Text} (h : Text.trim t = Text.trim u) : outline t = outline u := by
  unfold outline
  rw [h]

/-- A text without blanks at its ends is split as it is. -/
theorem outline_of_hasInkAtEnds {t : Text} (h : t.HasInkAtEnds) (hne : t ≠ []) :
    outline t = (splitTopLevel '.' t).bind Outline.ofSegments := by
  obtain ⟨first, rest, rfl⟩ := List.exists_cons_of_ne_nil hne
  rw [outline, h.trim_eq_self]

/-- **One level.** An outline has calls, and in each of them the arguments are shorter than the
text. -/
theorem isReading_of_outline {t : Text} {o : Outline} (h : outline t = some o) :
    o.calls ≠ [] ∧ ∀ c ∈ o.calls, c.IsReading t.length := by
  unfold outline at h
  split at h
  · cases h
  · obtain ⟨segments, hsegments, ho⟩ := Option.bind_eq_some_iff.mp h
    obtain ⟨hne, hcalls⟩ := Outline.ofSegments_eq_some ho
    refine ⟨hne, fun c hc => ?_⟩
    obtain ⟨segment, hsegment, hread⟩ := hcalls c hc
    have hle := (isWhole_of_mem_splitTopLevel isSeparator_dot hsegments segment hsegment).2
    refine (CallOutline.isReading_of_read? hread).mono ?_
    have htrim := Text.length_trim_le segment
    have htext := Text.length_trim_le t
    omega

/-! ## All levels -/

theorem CallOutline.name_toCall (c : CallOutline) (read : Text → Node) :
    (c.toCall read).name = c.name := by
  unfold CallOutline.toCall
  split <;> rfl

theorem CallOutline.args?_toCall (c : CallOutline) (read : Text → Node) :
    (c.toCall read).args? = c.args.map (List.map read) := by
  unfold CallOutline.toCall
  cases c.args <;> rfl

theorem CallOutline.IsReading.toCall_congr {length : Nat} {c : CallOutline} (h : c.IsReading length)
    {read read' : Text → Node} (heq : ∀ t, t.length < length → read t = read' t) :
    c.toCall read = c.toCall read' := by
  unfold CallOutline.toCall
  cases hargs : c.args with
  | none => rfl
  | some texts =>
    have hmap : texts.map read = texts.map read' :=
      List.map_congr_left fun t ht => heq t (h.args texts hargs t ht).length_lt
    simp only [hmap]

theorem Outline.toNode_congr {t : Text} {o : Outline} (h : outline t = some o)
    {read read' : Text → Node} (heq : ∀ u : Text, u.length < t.length → read u = read' u) :
    o.toNode read = o.toNode read' := by
  have hcalls : ∀ c ∈ o.calls, c.toCall read = c.toCall read' :=
    fun c hc => ((isReading_of_outline h).2 c hc).toCall_congr heq
  rw [Outline.toNode, Outline.toNode, List.map_congr_left hcalls]

/-- Any number of levels that the length allows gives the same tree. -/
theorem parseLevels_eq {depth depth' : Nat} {t : Text} (h : t.length ≤ depth)
    (h' : t.length ≤ depth') : parseLevels depth t = parseLevels depth' t := by
  induction depth generalizing depth' t with
  | zero =>
    -- the empty text has no outline, so that no level is needed for it
    obtain rfl : t = [] := List.length_eq_zero_iff.mp (Nat.le_zero.mp h)
    cases depth' <;> rfl
  | succ depth ih =>
    cases depth' with
    | zero =>
      obtain rfl : t = [] := List.length_eq_zero_iff.mp (Nat.le_zero.mp h')
      rfl
    | succ depth' =>
      rw [parseLevels, parseLevels]
      cases ho : outline t with
      | none => rfl
      | some o =>
        -- the arguments are shorter than the text, so one level less is enough for them
        exact Outline.toNode_congr ho fun u hu => ih (by omega) (by omega)

/-- **All levels.** A text is read as its outline, with the arguments read in the same way. -/
theorem parse_eq (t : Text) :
    parse t = match outline t with
      | none => .raw (Text.trim t)
      | some o => o.toNode parse := by
  have hlevel : parse t = parseLevels (t.length + 1) t :=
    parseLevels_eq (Nat.le_refl _) (Nat.le_succ _)
  rw [hlevel, parseLevels]
  cases ho : outline t with
  | none => rfl
  | some o =>
    exact Outline.toNode_congr ho fun u hu => parseLevels_eq (Nat.le_of_lt hu) (Nat.le_refl _)

theorem parse_congr {t u : Text} (h : Text.trim t = Text.trim u) : parse t = parse u := by
  rw [parse_eq, parse_eq, outline_congr h, h]

theorem parse_trim (t : Text) : parse (Text.trim t) = parse t := parse_congr (Text.trim_trim t)

/-- What is kept as written is trimmed. -/
theorem eq_trim_of_parse_eq_raw {t r : Text} (h : parse t = .raw r) : r = Text.trim t := by
  rw [parse_eq] at h
  split at h
  · cases h
    rfl
  · cases h

end Expression

end ModelSchemas

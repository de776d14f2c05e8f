import ModelSchemas.Expression.Modifier
import ModelSchemas.Proofs.Expression.Continuation

/-!
# Declared modifiers

A modifier that has been added is found, and what is found in a text is found in it still when
another modifier is added. This needs no assumption on the text: what a chain is asked for is among
its calls also when the chain goes on, and what is searched for in raw text is found also in a
longer one.
-/

namespace ModelSchemas

namespace Expression

/-! ## Calls of a chain -/

section

variable {names : List Text} {leadingDot : Bool} {calls : List Call} {call : Call}

theorem hasCall_append (h : hasCall names leadingDot calls) (more : List Call) :
    hasCall names leadingDot (calls ++ more) := by
  cases calls with
  | nil => cases leadingDot <;> cases h
  | cons head rest =>
    simp only [hasCall, hasNamespaceHead, List.cons_append, List.drop_one, List.tail_cons] at h ⊢
    split_ifs at h ⊢
    · rw [List.any_append, h, Bool.true_or]
    · rw [← List.cons_append, List.any_append, h, Bool.true_or]

/-- Every call but the first counts. -/
theorem hasCall_cons_of_mem {head : Call} (hcall : call ∈ calls) (hname : call.name ∈ names) :
    hasCall names leadingDot (head :: calls) := by
  have hany : calls.any fun call => names.contains call.name :=
    List.any_eq_true.mpr ⟨call, hcall, by simpa using hname⟩
  rw [hasCall]
  split_ifs
  · exact hany
  · rw [List.any_cons, hany, Bool.or_true]

/-- The first call counts as well, unless it is the namespace. -/
theorem hasCall_concat (hname : call.name ∈ names) (hcall : call.isNamespace = false) :
    hasCall names leadingDot (calls ++ [call]) := by
  cases calls with
  | nil => simp [hasCall, hasNamespaceHead, hcall, hname]
  | cons head rest => exact hasCall_cons_of_mem (by simp) hname

end

theorem endsWith_concat (name : Text) (typeArgs : Option Text) (calls : List Call) :
    endsWith name (calls ++ [.invoke name typeArgs []]) := by
  simp [endsWith]

/-! ## Questions to a text -/

/-- A chain is asked for a call with one of the names, and raw text is searched. -/
def declares (names : List Text) (search : Text → Bool) (expression : Text) : Bool :=
  match parse expression with
  | .raw _ => search expression
  | .chain leadingDot calls => hasCall names leadingDot calls

/-- A search that finds nothing in blanks, and finds what it found when the text is continued. -/
structure IsSearch (search : Text → Bool) : Prop where
  append : ∀ t more, search t → search (t ++ more)
  hasInk : ∀ t, search t → Text.allBlank t = false

theorem isSearch_occurs {piece : Text} (h : Text.allBlank piece = false) :
    IsSearch (Text.occurs piece) where
  append t more ht :=
    Text.occurs_iff.mpr ((Text.occurs_iff.mp ht).trans (List.prefix_append t more).isInfix)
  hasInk t ht := by
    rw [Bool.eq_false_iff] at h ⊢
    intro hblank
    refine h (List.all_eq_true.mpr fun c hc => ?_)
    exact List.all_eq_true.mp hblank c ((Text.occurs_iff.mp ht).subset hc)

theorem isSearch_isPrefixOf {piece : Text} (h : Text.allBlank piece = false) :
    IsSearch (piece.isPrefixOf ·) where
  append t more ht := by
    rw [List.isPrefixOf_iff_prefix] at ht ⊢
    exact ht.trans (List.prefix_append t more)
  hasInk t ht := by
    rw [List.isPrefixOf_iff_prefix] at ht
    exact (isSearch_occurs h).hasInk t (Text.occurs_iff.mpr ht.isInfix)

theorem IsSearch.or {search search' : Text → Bool} (h : IsSearch search) (h' : IsSearch search') :
    IsSearch fun t => search t || search' t where
  append t more ht := by
    rcases Bool.or_eq_true_iff.mp ht with ht | ht
    · exact Bool.or_eq_true_iff.mpr (.inl (h.append t more ht))
    · exact Bool.or_eq_true_iff.mpr (.inr (h'.append t more ht))
  hasInk t ht := by
    rcases Bool.or_eq_true_iff.mp ht with ht | ht
    · exact h.hasInk t ht
    · exact h'.hasInk t ht

section

variable {names : List Text} {search : Text → Bool} {u : Text} {c : CallOutline}
  (hu : IsSegment u c)

include hu

/-- What a text declares it declares also when it goes on with a call. -/
theorem declares_append (hsearch : IsSearch search) {t : Text} (h : declares names search t) :
    declares names search (t ++ '.' :: u) := by
  unfold declares at h
  cases hparse : parse t with
  | raw r =>
    simp only [hparse] at h
    obtain ⟨r', hraw⟩ := hu.parse_of_raw hparse (hsearch.hasInk t h)
    simp only [declares, hraw]
    exact hsearch.append t _ h
  | chain leadingDot calls =>
    simp only [hparse] at h
    simp only [declares, hu.parse_of_chain hparse]
    exact hasCall_append h _

/-- A text that goes on with a call of one of the names declares it. -/
theorem declares_append_self (hname : c.name ∈ names) (hcall : (c.toCall parse).isNamespace = false)
    {t : Text} (hsearch : search (t ++ '.' :: u)) : declares names search (t ++ '.' :: u) := by
  rcases hu.parse_append_cases t with ⟨r, hparse⟩ | ⟨leadingDot, calls, hparse⟩
  · simp only [declares, hparse]
    exact hsearch
  · simp only [declares, hparse]
    exact hasCall_concat ((CallOutline.name_toCall c parse).symm ▸ hname) hcall

end

/-! ## Null and absence -/

theorem isSegment_nullable : IsSegment "nullable()" ⟨"nullable", none, some []⟩ := by
  have hname : IsName "nullable" := ⟨by decide, List.all_eq_true.mp (by decide)⟩
  exact isSegment_invocation hname

theorem isSegment_optional : IsSegment "optional()" ⟨"optional", none, some []⟩ := by
  have hname : IsName "optional" := ⟨by decide, List.all_eq_true.mp (by decide)⟩
  exact isSegment_invocation hname

/-- How raw text is searched for null. -/
def searchNullable (t : Text) : Bool := Text.occurs ".nullable(" t || Text.occurs ".nullish(" t

theorem isNullable_eq : isNullable = declares ["nullable", "nullish"] searchNullable := rfl

theorem isSearch_searchNullable : IsSearch searchNullable :=
  (isSearch_occurs (by decide)).or (isSearch_occurs (by decide))

theorem isNullable_append_nullable (t : Text) : isNullable (t ++ ".nullable()") := by
  have hsearch : searchNullable (t ++ ".nullable()") := by
    have hoccurs : Text.occurs ".nullable(" (t ++ ".nullable()") :=
      Text.occurs_iff.mpr ⟨t, ")", by simp⟩
    rw [searchNullable, hoccurs, Bool.true_or]
  rw [isNullable_eq]
  exact declares_append_self isSegment_nullable (by decide) rfl hsearch

theorem isNullable_append_optional {t : Text} (h : isNullable t) :
    isNullable (t ++ ".optional()") := by
  rw [isNullable_eq] at h ⊢
  exact declares_append isSegment_optional isSearch_searchNullable h

theorem endsOptional_append_optional (t : Text) : endsOptional (t ++ ".optional()") := by
  rcases isSegment_optional.parse_append_cases t with ⟨r, hparse⟩ | ⟨leadingDot, calls, hparse⟩
  · -- no blank is at the end, so that the text ends as it is written
    have hend : Text.trimEnd (t ++ ".optional()") = t ++ ".optional()" := by
      refine Text.trimEnd_eq_self fun c hc => ?_
      rw [List.getLast?_append] at hc
      cases hc
      decide
    have hsuffix : (".optional()" : Text).isSuffixOf (t ++ ".optional()") := by
      rw [List.isSuffixOf_iff_suffix]
      exact List.suffix_append t _
    have hparse' : parse (t ++ ".optional()") = .raw r := hparse
    simp only [endsOptional, hparse', hend]
    exact hsuffix
  · have hparse' : parse (t ++ ".optional()") =
        .chain leadingDot (calls ++ [.invoke "optional" none []]) := hparse
    simp only [endsOptional, hparse']
    exact endsWith_concat _ none calls

/-! ## Lists -/

/-- How raw text is searched for a list. -/
def searchArray (t : Text) : Bool :=
  Text.occurs ".array(" t || ("z.array(" : Text).isPrefixOf t

theorem isArray_eq : isArray = declares ["array"] searchArray := rfl

theorem isSearch_searchArray : IsSearch searchArray :=
  (isSearch_occurs (by decide)).or (isSearch_isPrefixOf (by decide))

theorem isArray_append_optional {t : Text} (h : isArray t) : isArray (t ++ ".optional()") := by
  rw [isArray_eq] at h ⊢
  exact declares_append isSegment_optional isSearch_searchArray h

/-- A call has the name that its text starts with. -/
theorem name_of_read? {segment : Text} {c : CallOutline} (h : CallOutline.read? segment = some c) :
    c.name = segment.takeWhile continuesName := by
  have hname : ∀ {read}, CallText.read? segment = some read →
      read.name = segment.takeWhile continuesName := by
    intro read hread
    unfold CallText.read? at hread
    split at hread
    · cases hread
    · split_ifs at hread with hstart
      rw [(CallText.readAfterName_eq_some hread).1,
        List.takeWhile_cons_of_pos (continuesName_of_startsName hstart)]
  unfold CallOutline.read? at h
  split at h
  · cases h
  · rename_i name typeArgs hread
    cases h
    exact hname hread
  · rename_i name typeArgs text hread
    obtain ⟨args, -, rfl⟩ := Option.map_eq_some_iff.mp h
    exact hname hread

/-- A segment that starts like an invocation of `array` is read as one, if it is read at all. -/
theorem name_eq_array {segment : Text} {c : CallOutline} (hfront : ("array(" : Text) <+: segment)
    (h : CallOutline.read? (Text.trim segment) = some c) : c.name = "array" := by
  have hink : Text.HasInkAtEnds "array(" := Text.hasInkAtEnds_iff.mpr (by decide)
  obtain ⟨rest, hrest⟩ := Text.prefix_trim hink (by decide) hfront
  have hname : ∀ d ∈ ("array" : Text), continuesName d := List.all_eq_true.mp (by decide)
  have hend : ∀ d, ('(' :: rest).head? = some d → continuesName d = false := by
    rintro d ⟨⟩
    decide
  rw [name_of_read? h, ← hrest]
  exact (span_append hname hend).1

/-- The namespace in front of a dot is a segment of its own. -/
theorem splitTopLevel_namespace (rest : Text) :
    splitTopLevel '.' ('z' :: '.' :: rest) = (splitTopLevel '.' rest).map (['z'] :: ·) := by
  have hstep : Scanner.start.step 'z' = some ⟨.outside, 0, some 'z'⟩ :=
    Scanner.step_outside (by decide) (by decide) (by decide)
  have hcut : Scanner.start.cuts '.' 'z' = false := cuts_of_ne (by decide)
  have hdone : (⟨.outside, 0, some 'z'⟩ : Scanner).isDone := rfl
  rw [splitTopLevel, piecesFrom]
  simp only [hstep, hcut, piecesFrom_separator isSeparator_dot hdone, Option.map_map]
  rfl

/-- The constructor around any text is a list, also where the text is not in order. -/
theorem isArray_constructor (t : Text) : isArray ("z.array(" ++ t ++ ")") := by
  have hink : Text.HasInkAtEnds ("z.array(" ++ t ++ ")") :=
    Text.hasInkAtEnds_enclosed (by decide) (by decide) (".array(" ++ t)
  have hsplit : splitTopLevel '.' ("z.array(" ++ t ++ ")") =
      (splitTopLevel '.' ("array(" ++ (t ++ ")"))).map (['z'] :: ·) := by
    rw [← splitTopLevel_namespace]
    simp
  have houtline := outline_of_hasInkAtEnds hink (by simp)
  rw [hsplit] at houtline
  rw [isArray_eq, declares, parse_eq, houtline]
  cases hrest : splitTopLevel '.' ("array(" ++ (t ++ ")")) with
  | none => simp [searchArray]
  | some pieces =>
    obtain ⟨piece, more, rfl⟩ := List.exists_cons_of_ne_nil (piecesFrom_ne_nil hrest)
    have hfront : ("array(" : Text) <+: piece :=
      prefix_first_piece isSeparator_dot (by decide) hrest
    rw [Option.map_some, Option.bind_some, Outline.ofSegments_of_hasInk (by decide)]
    cases hcalls : (['z'] :: piece :: more).mapM fun segment =>
        CallOutline.read? (Text.trim segment) with
    | none => simp [searchArray]
    | some calls =>
      obtain ⟨head, others, -, hothers, rfl⟩ :=
        List.forall₂_cons_left_iff.mp (mapM_eq_some_iff.mp hcalls)
      obtain ⟨second, rest, hsecond, -, rfl⟩ := List.forall₂_cons_left_iff.mp hothers
      have hname : (second.toCall parse).name = "array" :=
        (CallOutline.name_toCall second parse).trans (name_eq_array hfront hsecond)
      show hasCall ["array"] false (head.toCall parse :: _) = true
      have hmem : second.toCall parse ∈ (second :: rest).map (CallOutline.toCall parse) := by simp
      exact hasCall_cons_of_mem hmem (by simp [hname])

/-! ## The helpers -/

theorem isArray_ensureArray (t : Text) : isArray (ensureArray t) := by
  unfold ensureArray
  split_ifs with h
  · exact h
  · exact isArray_constructor t

theorem isNullable_ensureNullable (t : Text) : isNullable (ensureNullable t) := by
  unfold ensureNullable
  split_ifs with h
  · exact h
  · exact isNullable_append_nullable t

theorem endsOptional_ensureOptional (t : Text) : endsOptional (ensureOptional t) := by
  unfold ensureOptional
  split_ifs with h
  · exact h
  · exact endsOptional_append_optional t

theorem ensureArray_of_isArray {t : Text} (h : isArray t) : ensureArray t = t := if_pos h

theorem ensureNullable_of_isNullable {t : Text} (h : isNullable t) : ensureNullable t = t :=
  if_pos h

theorem ensureOptional_of_endsOptional {t : Text} (h : endsOptional t) : ensureOptional t = t :=
  if_pos h

/-- Making a list optional leaves it a list. -/
theorem isArray_ensureOptional {t : Text} (h : isArray t) : isArray (ensureOptional t) := by
  unfold ensureOptional
  split_ifs
  · exact h
  · exact isArray_append_optional h

/-- What admits null admits it also when it is made optional. -/
theorem isNullable_ensureOptional {t : Text} (h : isNullable t) :
    isNullable (ensureOptional t) := by
  unfold ensureOptional
  split_ifs
  · exact h
  · exact isNullable_append_optional h

end Expression

end ModelSchemas

import ModelSchemas.Proofs.Expression.Alphabet
import ModelSchemas.Proofs.Expression.Idempotence
import ModelSchemas.Proofs.Expression.Modifiers
import ModelSchemas.Proofs.Expression.OverrideLine
import ModelSchemas.Proofs.Expression.PassThrough

/-!
# The text of an override

The expression that a documentation gives stays in one line and is not empty. It belongs to the
namespace, unless the body of the override line passes an argument through.
-/

namespace ModelSchemas

namespace Expression

open Text

/-! ## The namespace -/

/-- An expression of the namespace starts with it. -/
def namespaceFront : Text := "z."

/-- A text that starts with the namespace is read as a chain with the namespace in front, or it is
not read at all. -/
theorem exists_calls_of_namespaceFront {t : Text} (ht : t.HasInkAtEnds)
    (hfront : namespaceFront <+: t) {o : Outline} (h : outline t = some o) :
    ∃ second rest, o = ⟨false, ⟨namespaceName, none, none⟩ :: second :: rest⟩ := by
  obtain ⟨rest, rfl⟩ := hfront
  have hsplit : splitTopLevel '.' (namespaceFront ++ rest) =
      (splitTopLevel '.' rest).map (['z'] :: ·) := splitTopLevel_namespace rest
  rw [outline_of_hasInkAtEnds ht (List.append_ne_nil_of_left_ne_nil (by decide) _), hsplit] at h
  obtain ⟨segments, hsegments, ho⟩ := Option.bind_eq_some_iff.mp h
  obtain ⟨pieces, hpieces, rfl⟩ := Option.map_eq_some_iff.mp hsegments
  obtain ⟨piece, more, rfl⟩ := List.exists_cons_of_ne_nil (piecesFrom_ne_nil hpieces)
  rw [Outline.ofSegments_of_hasInk (by decide)] at ho
  obtain ⟨calls, hcalls, rfl⟩ := Option.map_eq_some_iff.mp ho
  obtain ⟨head, others, hhead, hothers, rfl⟩ :=
    List.forall₂_cons_left_iff.mp (mapM_eq_some_iff.mp hcalls)
  obtain ⟨second, rest, -, -, rfl⟩ := List.forall₂_cons_left_iff.mp hothers
  have hread : CallOutline.read? (trim ['z']) = some ⟨namespaceName, none, none⟩ := by decide
  cases hread.symm.trans hhead
  exact ⟨second, rest, rfl⟩

/-- The calls of a chain stay behind the namespace. -/
theorem namespaceFront_prefix_normalise (second : Call) (rest : List Call) :
    namespaceFront <+:
      (normalise (.chain false (.member namespaceName none :: second :: rest))).render := by
  rw [normalise_chain, Node.render, renderCalls_eq_map]
  refine ⟨List.intercalate ['.'] (((second.invokePrimitive.mapArgs normalise) ::
    (rest.map (Call.mapArgs normalise)).flatMap Call.unwrapArray).map Call.render), ?_⟩
  rfl

/-- Text that is no literal is not transformed. -/
theorem transformLiteral_of_namespaceFront {t : Text} (h : namespaceFront <+: t)
    (onValue : Text → Text) : transformLiteral onValue t = t := by
  obtain ⟨rest, rfl⟩ := h
  rfl

/-- **The namespace.** A text that starts with the namespace is normalised to one that does. -/
theorem namespaceFront_prefix_normaliseText {t : Text} (h : namespaceFront <+: t) :
    namespaceFront <+: normaliseText t := by
  have hfront : namespaceFront <+: trim t :=
    prefix_trim (hasInkAtEnds_iff.mpr (by decide)) (by decide) h
  rw [normaliseText, ← parse_trim]
  cases ho : outline (trim t) with
  | none =>
    rw [parse_of_outline_eq_none ho, trim_trim, normalise, callBarePrimitives, hoistArrayModifier,
      apply_raw, transformLiteral_of_namespaceFront hfront, apply_raw,
      transformLiteral_of_namespaceFront hfront]
    exact hfront
  | some o =>
    obtain ⟨second, rest, rfl⟩ := exists_calls_of_namespaceFront (hasInkAtEnds_trim t) hfront ho
    rw [parse_of_outline_eq_some ho]
    exact namespaceFront_prefix_normalise _ _

theorem namespaceFront_prefix_withNamespace (body : Text) :
    namespaceFront <+: withNamespace body := by
  unfold withNamespace
  split_ifs with hfront hdot
  · exact List.isPrefixOf_iff_prefix.mp hfront
  · obtain ⟨rest, rfl⟩ := List.head?_eq_some_iff.mp hdot
    exact ⟨rest, rfl⟩
  · exact List.prefix_append _ _

/-! ## The body -/

section

variable {P : Char → Prop}

theorem IsOverrideLine.over_body {mayFollow : Char → Prop} {line body : Text}
    (h : IsOverrideLine mayFollow line body) (hline : Over P line) : Over P body := by
  obtain ⟨marker, -, after, rest, rfl, -, hleaves, rfl, -⟩ := h
  obtain ⟨blanks, dot, rfl, -, -⟩ := hleaves
  simp only [over_append] at hline
  exact hline.2.2.2.trim

theorem isFragment_of_useArgument {body argument : Text} (h : useArgument body = some argument)
    (hbody : Over P body) : IsFragment P argument ∧ allBlank argument = false := by
  unfold useArgument at h
  split at h
  · cases h
  · rename_i last hlast
    obtain ⟨segments, hsplit, hlast⟩ := Option.bind_eq_some_iff.mp hlast
    have hover : Over P (parenthesisedText (trim last)) := by
      have hsegment := (over_of_splitTopLevel hsplit hbody last (List.mem_of_getLast? hlast)).trim
      refine Over.trim (hsegment.subset ?_)
      intro c hc
      have hbehind := List.mem_of_mem_drop (List.dropLast_subset _ hc)
      exact (List.dropWhile_sublist _).subset hbehind
    have hink : (parenthesisedText (trim last)).HasInkAtEnds := hasInkAtEnds_trim _
    dsimp only at h
    split at h
    · split_ifs at h
      split at h
      · cases h
      · rename_i hne
        cases h
        exact ⟨⟨hne, hover⟩, hink.allBlank hne⟩
    · cases h

theorem isFragment_overrideExpression (hmarks : ∀ c ∈ writtenMarks, P c) (hz : P 'z') {body : Text}
    (hbody : Over P body) : IsFragment P (overrideExpression body) := by
  unfold overrideExpression
  split
  · rename_i argument hargument
    obtain ⟨hover, hink⟩ := isFragment_of_useArgument hargument hbody
    exact isFragment_normaliseText hmarks hover.all hink
  · obtain ⟨rest, hrest⟩ := namespaceFront_prefix_withNamespace body
    have hink : allBlank (withNamespace body) = false := by
      rw [← hrest]
      rfl
    have hover : Over P (withNamespace body) := by
      have hdot : P '.' := hmarks '.' (by decide)
      unfold withNamespace
      split_ifs
      · exact hbody
      · exact over_cons.mpr ⟨hz, hbody⟩
      · exact over_cons.mpr ⟨hz, over_cons.mpr ⟨hdot, hbody⟩⟩
    exact isFragment_normaliseText hmarks hover hink

end

/-- A body that passes no argument through is an expression of the namespace. -/
theorem namespaceFront_prefix_overrideExpression {body : Text} (h : useArgument body = none) :
    namespaceFront <+: overrideExpression body := by
  rw [overrideExpression, h]
  exact namespaceFront_prefix_normaliseText (namespaceFront_prefix_withNamespace body)

/-- A call of `use` without an argument passes nothing through, unless a parenthesis stands in its
generic arguments. -/
theorem useArgument_eq_none {body : Text}
    (h : ∀ c, EndsWithUse body c → allBlank c.argument ∧ '(' ∉ c.generic) :
    useArgument body = none := by
  by_contra hsome
  obtain ⟨argument, hargument⟩ := Option.ne_none_iff_exists'.mp hsome
  obtain ⟨c, hc⟩ := endsWithUse_of_useArgument hargument
  obtain ⟨hblank, hgeneric⟩ := h c hc
  refine hsome ?_
  rw [hc.useArgument_eq_nonBlank? hgeneric, nonBlank?_eq_none hblank]

/-! ## Documentation -/

/-- The line of a documentation holds no line break. -/
theorem over_documentationLine? {documentation : Option Text} {line : Text}
    (h : documentationLine? documentation = some line) :
    Over (fun c => isLineBreak c = false) line := by
  obtain ⟨first, hfirst, rfl⟩ := Option.map_eq_some_iff.mp h
  obtain ⟨d, -, hlines⟩ := Option.bind_eq_some_iff.mp hfirst
  have hne : trim d ≠ [] := by
    intro hnil
    rw [hnil] at hlines
    cases hlines
  rw [head?_lines hne] at hlines
  cases hlines
  refine Over.trim fun c hc => ?_
  exact isLineBreak_of_mem_firstLine hc

/-- Writing breaks no line. -/
theorem isLineBreak_of_mem_writtenMarks : ∀ c ∈ writtenMarks, isLineBreak c = false := by
  have hnone : writtenMarks.any isLineBreak = false := by decide
  simpa using hnone

/-- **The text of an override.** It is not empty and holds no line break. It starts with the
namespace, unless the body of the line ends with a call of `use` that has an argument or a
parenthesis in its generic arguments. -/
theorem override_text {documentation : Option Text} {expression : Text}
    (h : documentation.bind extractOverride = some expression) :
    expression ≠ [] ∧ (∀ c ∈ expression, isLineBreak c = false) ∧
    ∃ line body, documentationLine? documentation = some line ∧
      IsOverrideLine (fun c => continuesName c = false) line body ∧
      ((∀ c, EndsWithUse body c → allBlank c.argument ∧ '(' ∉ c.generic) →
        namespaceFront <+: expression) := by
  rw [extractOverride_eq] at h
  obtain ⟨body, hbody, rfl⟩ := Option.map_eq_some_iff.mp h
  obtain ⟨line, hline, hbody⟩ := Option.bind_eq_some_iff.mp hbody
  have hoverride := overrideBody?_eq_some_iff.mp hbody
  obtain ⟨hne, hover⟩ := isFragment_overrideExpression isLineBreak_of_mem_writtenMarks (by decide)
    (hoverride.over_body (over_documentationLine? hline))
  refine ⟨hne, hover, line, body, hline, hoverride, fun huse => ?_⟩
  exact namespaceFront_prefix_overrideExpression (useArgument_eq_none huse)

/-- An override in the first of two lines, with a dot of its own. -/
def twoLines : Text := " @zod .min(1)\nmore"

theorem two_lines_give_one :
    (some twoLines).bind extractOverride = some "z.min(1)" ∧
      ∀ c ∈ ("z.min(1)" : Text), isLineBreak c = false := by
  have hgiven : (some twoLines).bind extractOverride = some "z.min(1)" := by decide +kernel
  exact ⟨hgiven, (override_text hgiven).2.1⟩

/-- A call of `use` without an argument, with a function type among its generic arguments. -/
def emptyUse : UseCall := ⟨[], "<(a) => b>", [], []⟩

theorem endsWithUse_emptyUse : EndsWithUse emptyUse.text emptyUse := by
  have hread : CallOutline.read? emptyUse.text =
      some ⟨"use", some "(a) => b", some []⟩ := by decide +kernel
  exact ⟨⟨rfl, .inr ⟨"(a) => b", by decide, by decide⟩, rfl, _, _, parseCall_of_read? hread⟩,
    [emptyUse.text], emptyUse.text, by decide +kernel, rfl, by decide⟩

/-- No argument is passed through, and still the namespace is missing. -/
theorem empty_use_loses_namespace :
    IsOverrideLine EndsMarker ("@z." ++ emptyUse.text) emptyUse.text ∧
      (∀ c, EndsWithUse emptyUse.text c → allBlank c.argument) ∧
      extractOverride ("@z." ++ emptyUse.text) = some "a) => b>(" ∧
      ¬namespaceFront <+: "a) => b>(" := by
  refine ⟨⟨"@z", by decide, "." ++ emptyUse.text, emptyUse.text, rfl, ?_, ?_, by decide, by decide⟩,
    fun c hc => ?_, by decide +kernel, by decide⟩
  · rintro c ⟨⟩
    exact .inr rfl
  · exact leaves_iff.mpr rfl
  · rw [hc.argument_eq endsWithUse_emptyUse]
    rfl

end Expression

end ModelSchemas

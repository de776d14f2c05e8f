import ModelSchemas.Proofs.Expression.Application
import ModelSchemas.Proofs.Expression.Ink
import ModelSchemas.Proofs.Expression.RoundTrip

/-!
# Sound trees

A sound tree is found again in its text, and so is all that its literals hold. What is read is sound
if its generic arguments are delimited, except for raw text at the top that no rule changes, and
rules that rearrange calls keep trees sound.
-/

namespace ModelSchemas

namespace Expression

open Text

/-! ## Literals are no chains -/

theorem ink_cons_of_ink {c : Char} (hblank : isBlank c = false) (hcomma : c ≠ ',') (t : Text) :
    ink (c :: t) = c :: ink t :=
  List.filter_cons_of_pos (by simp [hblank, hcomma])

/-- The text of a chain starts with a dot or a name. -/
theorem head?_ink_of_outline {t : Text} {o : Outline} (h : outline t = some o) :
    ∃ c, (ink t).head? = some c ∧ (c = '.' ∨ startsName c) := by
  obtain ⟨hne, hcalls⟩ := isReading_of_outline h
  rw [← Outline.ink_text h, Outline.text]
  cases o.leadingDot with
  | true => exact ⟨'.', rfl, .inl rfl⟩
  | false =>
    obtain ⟨first, rest, heq⟩ := List.exists_cons_of_ne_nil hne
    have hname := (hcalls first (heq ▸ List.mem_cons_self)).name
    obtain ⟨c, more, hcons⟩ := List.exists_cons_of_ne_nil hname.ne_nil
    have hblank := isBlank_of_continuesName (hname.continuesName c (by simp [hcons]))
    rw [hcons] at hname
    have hstart : startsName c := hname.1
    have hcomma : c ≠ ',' := by
      rintro rfl
      exact absurd hstart (by decide)
    refine ⟨c, ?_, .inr hstart⟩
    rw [heq, List.map_cons, CallOutline.text, callText, hcons, List.cons_append,
      intercalate_cons_first]
    exact congrArg List.head? (ink_cons_of_ink hblank hcomma _)

/-- A literal starts with a bracket, so it is read as raw text. -/
theorem IsLiteral.outline_eq_none {t : Text} {first close : Char} {parts : List Text}
    (h : IsLiteral t first close parts) : outline t = none := by
  cases ho : outline t with
  | none => rfl
  | some o =>
    obtain ⟨c, hink, hc⟩ := head?_ink_of_outline ho
    rw [h.eq] at hink
    rcases h.opens with rfl | rfl
    · rw [ink_cons_of_ink (by decide) (by decide)] at hink
      cases hink
      exact absurd hc (by decide)
    · rw [ink_cons_of_ink (by decide) (by decide)] at hink
      cases hink
      exact absurd hc (by decide)

/-! ## Sound trees -/

/-- A call with a proper name and delimited generic arguments. -/
structure Call.IsWellNamed (c : Call) : Prop where
  name : IsName c.name
  typeArgs : ∀ t, c.typeArgs = some t → IsDelimited t

/-- Raw text that is read as raw text and may stand as a value. -/
structure IsSoundRaw (text : Text) : Prop where
  outline : outline text = none
  isValue : IsValue text

/-- A chain that can be written. -/
structure IsSoundChain (leadingDot : Bool) (calls : List Call) : Prop where
  ne_nil : calls ≠ []
  isWellNamed : ∀ c ∈ calls, c.IsWellNamed

/-- A tree of chains that can be written and of raw text that is read as such. -/
def Node.IsSound (n : Node) : Prop := n.Throughout IsSoundRaw IsSoundChain

theorem parse_of_isSoundRaw {text : Text} (h : IsSoundRaw text) : parse text = .raw text := by
  rw [parse_of_outline_eq_none h.outline, h.isValue.hasInkAtEnds.trim_eq_self]

/-- A sound tree is found again in its text, level by level. -/
theorem Node.IsSound.isRecoverable {n : Node} (h : n.IsSound) : n.IsRecoverable := by
  induction h with
  | raw holds _ _ =>
    have hvalue := holds.isValue
    exact ⟨parse_of_isSoundRaw holds, hvalue.isWhole, hvalue.hasInkAtEnds, hvalue.ne_nil⟩
  | chain holds _ ih =>
    refine isRecoverable_chain (fun c hc => ?_) holds.ne_nil
    exact ⟨(holds.isWellNamed c hc).name, (holds.isWellNamed c hc).typeArgs, ih c hc⟩

theorem Node.IsSound.isValue_render {n : Node} (h : n.IsSound) : IsValue n.render where
  isWhole := h.isRecoverable.isWhole
  hasInkAtEnds := h.isRecoverable.hasInkAtEnds
  ne_nil := h.isRecoverable.ne_nil

/-! ## Reading -/

/-- All generic arguments that are read from the text are delimited, those in its literals
included. -/
def HasDelimitedGenerics (t : Text) : Prop :=
  (parse t).Throughout (fun _ => True)
    fun _ calls => ∀ c ∈ calls, ∀ generic, c.typeArgs = some generic → IsDelimited generic

/-- What is read is sound, if at the top it is a chain or raw text that may stand as a value. -/
theorem isSound_parse {t : Text} (hgenerics : HasDelimitedGenerics t)
    (hraw : outline t = none → IsWhole ',' t ∧ allBlank t = false) : (parse t).IsSound := by
  unfold HasDelimitedGenerics at hgenerics
  induction t using parse_induction with
  | raw t ho ih =>
    obtain ⟨hwhole, hink⟩ := hraw ho
    rw [parse_of_outline_eq_none ho] at hgenerics ⊢
    refine .raw ⟨(outline_congr (trim_trim t)).trans ho, isValue_trim hwhole hink⟩ fun v hv => ?_
    have hvalue := (isValue_of_mem_literalValues hv).1
    refine ih v hv (hgenerics.of_raw.2 v hv) fun _ => ?_
    exact ⟨hvalue.isWhole, hvalue.hasInkAtEnds.allBlank hvalue.ne_nil⟩
  | chain t o ho ih =>
    obtain ⟨hne, hcalls⟩ := isReading_of_outline ho
    rw [parse_of_outline_eq_some ho] at hgenerics ⊢
    obtain ⟨hdelimited, hargs⟩ := hgenerics.of_chain
    refine .chain ⟨by simpa using hne, fun c hc => ⟨?_, hdelimited c hc⟩⟩ ?_
    · obtain ⟨outlined, houtlined, rfl⟩ := List.mem_map.mp hc
      rw [CallOutline.name_toCall]
      exact (hcalls outlined houtlined).name
    · intro c hc args hsome a ha
      have hdelimited := hargs c hc args hsome a ha
      obtain ⟨outlined, houtlined, rfl⟩ := List.mem_map.mp hc
      obtain ⟨texts, htexts, u, hu, rfl⟩ := exists_text_of_mem_args hsome ha
      have harg := (hcalls outlined houtlined).args texts htexts u hu
      exact ih outlined houtlined texts htexts u hu hdelimited fun _ => ⟨harg.isWhole, harg.hasInk⟩

/-- Raw text at the top that holds no value. No rule changes it. -/
structure IsInert (t : Text) : Prop where
  parse_eq : parse t = .raw (trim t)
  values : literalValues (trim t) = []
  transform : ∀ onValue, transformLiteral onValue (trim t) = trim t

/-- **Reading.** With delimited generic arguments, what is read is sound, or no rule changes it. -/
theorem isSound_or_isInert {t : Text} (hgenerics : HasDelimitedGenerics t) :
    (parse t).IsSound ∨ IsInert t := by
  cases ho : outline t with
  | some o =>
    left
    refine isSound_parse hgenerics fun hnone => ?_
    rw [ho] at hnone
    cases hnone
  | none =>
    rcases isLiteral_or (trim t) with ⟨first, close, parts, hliteral⟩ | ⟨hvalues, htransform⟩
    · left
      refine isSound_parse hgenerics fun _ => ?_
      have hwhole := (isWhole_trim_iff isSeparator_comma).mp hliteral.isValue.isWhole
      refine ⟨hwhole, ?_⟩
      rw [Bool.eq_false_iff]
      exact fun hblank => hliteral.isValue.ne_nil (trim_eq_nil_iff.mpr hblank)
    · exact .inr ⟨parse_of_outline_eq_none ho, hvalues, htransform⟩

/-! ## Rules -/

/-- A transformed literal is read as raw text, like the literal. -/
theorem IsSoundRaw.transformLiteral {onValue : Text → Text} {t : Text} (h : IsSoundRaw t)
    (hvalues : ∀ v ∈ literalValues t, IsValue (onValue v)) :
    IsSoundRaw (transformLiteral onValue t) := by
  rcases isLiteral_or t with ⟨first, close, parts, hliteral⟩ | ⟨-, hsame⟩
  · have hnew := hliteral.transform hvalues
    exact ⟨hnew.outline_eq_none, hnew.isValue⟩
  · rw [hsame]
    exact h

/-- The calls that a rule gives are as well named as those it is given. -/
theorem Call.ComesFrom.isWellNamed {calls : List Call} {c : Call} (h : c.ComesFrom calls)
    (hcalls : ∀ c ∈ calls, c.IsWellNamed)
    (hargs : ∀ c ∈ calls, c.Throughout IsSoundRaw IsSoundChain) : c.IsWellNamed := by
  cases h with
  | same hc => exact hcalls c hc
  | wrapped hwrapper hc =>
    exact (hargs _ hwrapper _ rfl _ List.mem_cons_self).of_chain.1.isWellNamed c hc
  | emptied hc => exact ⟨(hcalls _ hc).name, (hcalls _ hc).typeArgs⟩

section

variable {rule : Rule} (hrule : rule.Rearranges)

include hrule

/-- **Rules keep trees sound.** -/
theorem Node.IsSound.apply {n : Node} (h : n.IsSound) : (n.apply rule).IsSound := by
  induction h with
  | raw holds _ ih =>
    have hvalues : ∀ v ∈ literalValues _, IsValue ((parse v).apply rule).render :=
      fun v hv => Node.IsSound.isValue_render (ih v hv)
    rw [apply_raw]
    refine .raw (holds.transformLiteral hvalues) ?_
    rw [literalValues_transformLiteral hvalues, List.forall_mem_map]
    intro v hv
    rw [(Node.IsSound.isRecoverable (ih v hv)).parse_render]
    exact ih v hv
  | chain holds _ ih =>
    rename_i calls _
    have hargs : ∀ c ∈ calls.map (Call.mapArgs (Node.apply rule)),
        c.Throughout IsSoundRaw IsSoundChain := throughout_map_mapArgs ih
    have hnames : ∀ c ∈ calls.map (Call.mapArgs (Node.apply rule)), c.IsWellNamed := by
      intro c hc
      obtain ⟨old, hold, rfl⟩ := List.mem_map.mp hc
      obtain ⟨hname, htypeArgs⟩ := holds.isWellNamed old hold
      exact ⟨by rwa [Call.name_mapArgs], by rwa [Call.typeArgs_mapArgs]⟩
    rw [apply_chain]
    refine .chain ⟨hrule.ne_nil (by simpa using holds.ne_nil), fun c hc => ?_⟩
      (hrule.throughout hargs)
    exact (hrule.comesFrom hc).isWellNamed hnames hargs

end

end Expression

end ModelSchemas

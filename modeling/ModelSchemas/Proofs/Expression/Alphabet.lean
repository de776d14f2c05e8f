import ModelSchemas.Proofs.Expression.Application
import ModelSchemas.Proofs.Expression.Cutting
import ModelSchemas.Proofs.Expression.RoundTrip

/-!
# Alphabets

What reading takes out of a text has only characters of the text, and to these writing adds only a
few marks. So a normalised text has no other characters than the text and the marks, and it is not
empty where the text is not blank.
-/

namespace ModelSchemas

namespace Text

/-! ## Texts over an alphabet -/

/-- All characters of the text are in the alphabet. -/
def Over (P : Char → Prop) (t : Text) : Prop := ∀ c ∈ t, P c

section

variable {P : Char → Prop} {t u between : Text} {texts : List Text}

@[simp] theorem over_nil : Over P [] := List.forall_mem_nil P

@[simp] theorem over_cons {c : Char} : Over P (c :: t) ↔ P c ∧ Over P t := List.forall_mem_cons

@[simp] theorem over_append : Over P (t ++ u) ↔ Over P t ∧ Over P u := List.forall_mem_append

theorem Over.subset (h : Over P t) (hsub : u ⊆ t) : Over P u := fun c hc => h c (hsub hc)

theorem Over.trim (h : Over P t) : Over P (trim t) := by
  obtain ⟨before, behind, -, -, heq⟩ := exists_eq_trim_between t
  rw [heq, over_append, over_append] at h
  exact h.2.1

theorem over_intercalate (hbetween : Over P between) (h : ∀ t ∈ texts, Over P t) :
    Over P (List.intercalate between texts) :=
  intercalate_of_append over_nil (fun ht hu => over_append.mpr ⟨ht, hu⟩) hbetween h

/-- What is joined is over the alphabet of the whole. -/
theorem over_of_over_intercalate (h : Over P (List.intercalate between texts)) :
    ∀ t ∈ texts, Over P t := by
  induction texts with
  | nil => simp
  | cons first rest ih =>
    cases rest with
    | nil => simpa using h
    | cons second rest =>
      rw [List.intercalate_cons_cons, over_append, over_append] at h
      intro t ht
      rcases List.mem_cons.mp ht with rfl | ht
      · exact h.1.1
      · exact ih h.2 t ht

end

/-- A text over an alphabet that is not empty. -/
structure IsFragment (P : Char → Prop) (t : Text) : Prop where
  ne_nil : t ≠ []
  all : Over P t

end Text

namespace Expression

open Text

variable {P : Char → Prop}

/-! ## What is read -/

/-- The pieces of a text are over its alphabet. -/
theorem over_of_splitTopLevel {separator : Char} {t : Text} {pieces : List Text}
    (h : splitTopLevel separator t = some pieces) (ht : Over P t) : ∀ u ∈ pieces, Over P u := by
  rw [← intercalate_splitTopLevel h] at ht
  exact over_of_over_intercalate ht

/-- What is read of a call is over an alphabet. -/
structure CallText.IsOver (P : Char → Prop) (c : CallText) : Prop where
  name : Over P c.name
  typeArgs : ∀ t, c.typeArgs = some t → Over P t
  argText : ∀ t, c.argText = some t → Over P t

theorem CallText.isOver_of_readArguments {name rest : Text} {typeArgs : Option Text} {c : CallText}
    (h : readArguments name typeArgs rest = some c) (hname : Over P name)
    (htypeArgs : ∀ t, typeArgs = some t → Over P t) (hrest : Over P rest) : c.IsOver P := by
  unfold readArguments at h
  split at h
  · cases h
    exact ⟨hname, htypeArgs, by simp⟩
  · split_ifs at h
    cases h
    refine ⟨hname, htypeArgs, fun t ht => ?_⟩
    cases ht
    exact (over_cons.mp hrest).2.subset (List.dropLast_subset _)
  · cases h

theorem CallText.isOver_of_readAfterName {name rest : Text} {c : CallText}
    (h : readAfterName name rest = some c) (hname : Over P name) (hrest : Over P rest) :
    c.IsOver P := by
  unfold readAfterName at h
  split at h
  · rename_i tail
    split at h
    · cases h
    · rename_i close hclose
      have hinside : Over P (trim ((('<' :: tail).take close).drop 1)) :=
        ((hrest.subset (List.take_subset _ _)).subset (List.drop_subset _ _)).trim
      have hbehind : Over P (trim (('<' :: tail).drop (close + 1))) :=
        (hrest.subset (List.drop_subset _ _)).trim
      refine isOver_of_readArguments h hname (fun t ht => ?_) hbehind
      cases ht
      exact hinside
  · exact isOver_of_readArguments h hname (by simp) hrest

theorem CallText.isOver_of_read? {segment : Text} {c : CallText} (h : read? segment = some c)
    (hsegment : Over P segment) : c.IsOver P := by
  unfold read? at h
  split at h
  · cases h
  · rename_i first rest
    split_ifs at h
    obtain ⟨hfirst, hrest⟩ := over_cons.mp hsegment
    refine isOver_of_readAfterName h ?_ ?_
    · exact over_cons.mpr ⟨hfirst, hrest.subset (List.takeWhile_subset _)⟩
    · exact (hrest.subset (List.dropWhile_sublist _).subset).trim

theorem CallOutline.typeArgs_toCall (c : CallOutline) (read : Text → Node) :
    (c.toCall read).typeArgs = c.typeArgs := by
  unfold CallOutline.toCall
  split <;> rfl

/-- What is read of a call is over an alphabet, down to the texts of the arguments. -/
structure CallOutline.IsOver (P : Char → Prop) (c : CallOutline) : Prop where
  name : IsFragment P c.name
  typeArgs : ∀ t, c.typeArgs = some t → Over P t
  args : ∀ texts, c.args = some texts → ∀ t ∈ texts, Over P t ∧ allBlank t = false

theorem CallOutline.isOver_of_read? {segment : Text} {c : CallOutline}
    (h : CallOutline.read? segment = some c) (hsegment : Over P segment) : c.IsOver P := by
  have hname := (CallOutline.isReading_of_read? h).name
  have hne : c.name ≠ [] := by
    intro hnil
    rw [hnil] at hname
    exact hname
  unfold CallOutline.read? at h
  split at h
  · cases h
  · rename_i hread
    cases h
    obtain ⟨hname, htypeArgs, -⟩ := CallText.isOver_of_read? hread hsegment
    exact ⟨⟨hne, hname⟩, htypeArgs, by simp⟩
  · rename_i text hread
    obtain ⟨texts, htexts, rfl⟩ := Option.map_eq_some_iff.mp h
    obtain ⟨pieces, hpieces, rfl⟩ := Option.map_eq_some_iff.mp htexts
    obtain ⟨hname, htypeArgs, htext⟩ := CallText.isOver_of_read? hread hsegment
    refine ⟨⟨hne, hname⟩, htypeArgs, fun texts heq t ht => ?_⟩
    cases heq
    obtain ⟨hmem, hink⟩ := List.mem_filter.mp ht
    exact ⟨over_of_splitTopLevel hpieces (htext text rfl) t hmem, by simpa using hink⟩

theorem isOver_of_outline {t : Text} {o : Outline} (h : outline t = some o) (ht : Over P t) :
    ∀ c ∈ o.calls, c.IsOver P := by
  unfold outline at h
  split at h
  · cases h
  · obtain ⟨segments, hsegments, ho⟩ := Option.bind_eq_some_iff.mp h
    intro c hc
    obtain ⟨segment, hsegment, hread⟩ := (Outline.ofSegments_eq_some ho).2 c hc
    refine CallOutline.isOver_of_read? hread ?_
    exact (over_of_splitTopLevel hsegments ht.trim segment hsegment).trim

theorem over_of_mem_literalValues {t v : Text} (hv : v ∈ literalValues t) (ht : Over P t) :
    Over P v := by
  rcases isLiteral_or t with ⟨first, close, parts, hliteral⟩ | ⟨hnone, -⟩
  · obtain ⟨part, hpart, hvalue⟩ := hliteral.mem_literalValues_iff.mp hv
    rw [hliteral.eq, over_cons, over_append] at ht
    have hover := over_of_over_intercalate ht.2.1 part hpart
    rcases part_cases first (hliteral.isWhole part hpart) with
      hnone | ⟨before, behind, v', hslot, hv', rfl⟩
    · cases hnone.value.symm.trans hvalue
    · cases (hslot.value hv').symm.trans hvalue
      rw [over_append, over_append] at hover
      exact hover.2.1
  · rw [hnone] at hv
    cases hv

/-! ## Trees -/

/-- The name of a call and its generic arguments are over an alphabet. -/
structure Call.IsOver (P : Char → Prop) (c : Call) : Prop where
  name : IsFragment P c.name
  typeArgs : ∀ t, c.typeArgs = some t → Over P t

/-- A chain has calls, and all of them are over an alphabet. -/
structure AreOver (P : Char → Prop) (calls : List Call) : Prop where
  ne_nil : calls ≠ []
  isOver : ∀ c ∈ calls, c.IsOver P

/-- All that is written in the tree is over an alphabet. -/
def Node.IsOver (P : Char → Prop) (n : Node) : Prop :=
  n.Throughout (IsFragment P) fun _ calls => AreOver P calls

theorem allBlank_of_mem_literalValues {t v : Text} (hv : v ∈ literalValues t) :
    allBlank v = false := by
  have hvalue := (isValue_of_mem_literalValues hv).1
  exact hvalue.hasInkAtEnds.allBlank hvalue.ne_nil

/-- **Reading.** The tree of a text is over the alphabet of the text. -/
theorem isOver_parse {t : Text} (ht : Over P t) (hink : allBlank t = false) :
    (parse t).IsOver P := by
  induction t using parse_induction with
  | raw t ho ih =>
    rw [parse_of_outline_eq_none ho]
    have hne : trim t ≠ [] := by
      rw [Ne, trim_eq_nil_iff, hink]
      exact Bool.false_ne_true
    refine .raw ⟨hne, ht.trim⟩ fun v hv => ?_
    exact ih v hv (over_of_mem_literalValues hv ht.trim) (allBlank_of_mem_literalValues hv)
  | chain t o ho ih =>
    have hcalls := isOver_of_outline ho ht
    rw [parse_of_outline_eq_some ho]
    refine .chain ⟨by simpa using (isReading_of_outline ho).1, fun c hc => ?_⟩ ?_
    · obtain ⟨outlined, houtlined, rfl⟩ := List.mem_map.mp hc
      obtain ⟨hname, htypeArgs, -⟩ := hcalls outlined houtlined
      exact ⟨by rwa [CallOutline.name_toCall], by rwa [CallOutline.typeArgs_toCall]⟩
    · intro c hc args hargs a ha
      obtain ⟨outlined, houtlined, rfl⟩ := List.mem_map.mp hc
      obtain ⟨texts, htexts, u, hu, rfl⟩ := exists_text_of_mem_args hargs ha
      obtain ⟨hover, hink⟩ := (hcalls outlined houtlined).args texts htexts u hu
      exact ih outlined houtlined texts htexts u hu hover hink

/-- The calls that a rule gives are over the alphabet of those it is given. -/
theorem Call.ComesFrom.isOver {calls : List Call} {c : Call} (h : c.ComesFrom calls)
    (hcalls : ∀ c ∈ calls, c.IsOver P)
    (hargs : ∀ c ∈ calls, c.Throughout (IsFragment P) fun _ calls => AreOver P calls) :
    c.IsOver P := by
  cases h with
  | same hc => exact hcalls c hc
  | wrapped hwrapper hc =>
    exact (hargs _ hwrapper _ rfl _ List.mem_cons_self).of_chain.1.isOver c hc
  | emptied hc => exact ⟨(hcalls _ hc).name, (hcalls _ hc).typeArgs⟩

/-! ## Writing -/

/-- The marks that are written between the parts of a tree. -/
def writtenMarks : List Char := ['.', ',', ' ', '(', ')', '<', '>']

section

variable (hmarks : ∀ c ∈ writtenMarks, P c)

include hmarks

theorem over_marks {marks : Text} (h : marks ⊆ writtenMarks) : Over P marks :=
  fun c hc => hmarks c (h hc)

theorem over_renderTypeArgs {typeArgs : Option Text} (h : ∀ t, typeArgs = some t → Over P t) :
    Over P (renderTypeArgs typeArgs) := by
  cases typeArgs with
  | none => exact over_nil
  | some t =>
    rw [renderTypeArgs, over_append, over_cons]
    exact ⟨⟨hmarks '<' (by decide), h t rfl⟩, over_marks hmarks (by decide)⟩

theorem over_argumentList {texts : Option (List Text)}
    (h : ∀ ts, texts = some ts → ∀ t ∈ ts, Over P t) : Over P (argumentList texts) := by
  cases texts with
  | none => exact over_nil
  | some ts =>
    have hbetween : Over P [',', ' '] := over_marks hmarks (by decide)
    rw [argumentList, over_append, over_cons]
    exact ⟨⟨hmarks '(' (by decide), over_intercalate hbetween (h ts rfl)⟩,
      over_marks hmarks (by decide)⟩

theorem Call.IsOver.isFragment_render {c : Call} (h : c.IsOver P)
    (hargs : ∀ args, c.args? = some args → ∀ a ∈ args, Over P a.render) :
    IsFragment P c.render := by
  rw [Call.render_eq_callText, callText]
  refine ⟨List.append_ne_nil_of_left_ne_nil h.name.ne_nil _, ?_⟩
  rw [over_append, over_append]
  refine ⟨h.name.all, over_renderTypeArgs hmarks h.typeArgs, over_argumentList hmarks ?_⟩
  intro ts hts t ht
  obtain ⟨args, hsome, rfl⟩ := Option.map_eq_some_iff.mp hts
  obtain ⟨a, ha, rfl⟩ := List.mem_map.mp ht
  exact hargs args hsome a ha

/-- **Writing.** The text of a tree is over the alphabet of the tree, and it is not empty. -/
theorem Node.IsOver.isFragment_render {n : Node} (h : n.IsOver P) : IsFragment P n.render := by
  unfold Node.IsOver at h
  induction h with
  | raw holds _ _ => exact holds
  | chain holds _ ih =>
    rename_i leadingDot calls _
    have hcalls : ∀ c ∈ calls, IsFragment P c.render := fun c hc =>
      (holds.isOver c hc).isFragment_render hmarks fun args hargs a ha =>
        (ih c hc args hargs a ha).all
    have hjoined : IsFragment P (List.intercalate ['.'] (calls.map Call.render)) := by
      obtain ⟨first, rest, rfl⟩ := List.exists_cons_of_ne_nil holds.ne_nil
      refine ⟨intercalate_ne_nil _ (hcalls first List.mem_cons_self).ne_nil _, ?_⟩
      refine over_intercalate (over_marks hmarks (by decide)) fun t ht => ?_
      obtain ⟨c, hc, rfl⟩ := List.mem_map.mp ht
      exact (hcalls c hc).all
    have hdot : Over P (if leadingDot then ['.'] else []) := by
      cases leadingDot
      · exact over_nil
      · exact over_marks hmarks (by decide)
    rw [Node.render, renderCalls_eq_map]
    exact ⟨List.append_ne_nil_of_right_ne_nil _ hjoined.ne_nil,
      over_append.mpr ⟨hdot, hjoined.all⟩⟩

/-! ## Rules -/

/-- A literal with transformed values is over the alphabet of the literal and of the values. -/
theorem isFragment_transformLiteral {onValue : Text → Text} {t : Text} (ht : IsFragment P t)
    (h : ∀ v ∈ literalValues t, Over P (onValue v)) :
    IsFragment P (transformLiteral onValue t) := by
  rcases isLiteral_or t with ⟨first, close, parts, hliteral⟩ | ⟨-, hsame⟩
  · have hover := ht.all
    rw [hliteral.eq, over_cons, over_append] at hover
    obtain ⟨hfirst, hjoined, hclose⟩ := hover
    have hparts : ∀ part ∈ parts, Over P (transformPart first onValue part) := by
      intro part hpart
      have hold := over_of_over_intercalate hjoined part hpart
      rcases part_cases first (hliteral.isWhole part hpart) with
        hnone | ⟨before, behind, v, hslot, hv, rfl⟩
      · rw [hnone.transform]
        exact hold
      · have hvalue := h v (hliteral.mem_literalValues_iff.mpr ⟨_, hpart, hslot.value hv⟩)
        rw [over_append, over_append] at hold
        rw [hslot.transform hv, over_append, over_append]
        exact ⟨hold.1, hvalue, hold.2.2⟩
    have hnew : Over P (List.intercalate [','] (parts.map (transformPart first onValue))) :=
      over_intercalate (over_marks hmarks (by decide)) (List.forall_mem_map.mpr hparts)
    rw [hliteral.transformLiteral_eq]
    exact ⟨List.cons_ne_nil _ _, over_cons.mpr ⟨hfirst, over_append.mpr ⟨hnew, hclose⟩⟩⟩
  · rw [hsame]
    exact ht

/-- **Rules.** A rule that rearranges calls leaves a tree over its alphabet. -/
theorem Node.IsOver.apply {n : Node} (h : n.IsOver P) {rule : Rule} (hrule : rule.Rearranges) :
    (n.apply rule).IsOver P := by
  unfold Node.IsOver at h
  induction h with
  | raw holds _ ih =>
    rename_i text _
    have hvalues : ∀ v ∈ literalValues text, Over P ((parse v).apply rule).render :=
      fun v hv => (Node.IsOver.isFragment_render hmarks (ih v hv)).all
    have hnew := isFragment_transformLiteral hmarks holds hvalues
    rw [apply_raw]
    refine .raw hnew fun v hv => ?_
    exact isOver_parse (over_of_mem_literalValues hv hnew.all) (allBlank_of_mem_literalValues hv)
  | chain holds _ ih =>
    rename_i calls _
    have hargs : ∀ c ∈ calls.map (Call.mapArgs (Node.apply rule)),
        c.Throughout (IsFragment P) fun _ calls => AreOver P calls := throughout_map_mapArgs ih
    have hcalls : ∀ c ∈ calls.map (Call.mapArgs (Node.apply rule)), c.IsOver P := by
      intro c hc
      obtain ⟨old, hold, rfl⟩ := List.mem_map.mp hc
      obtain ⟨hname, htypeArgs⟩ := holds.isOver old hold
      exact ⟨by rwa [Call.name_mapArgs], by rwa [Call.typeArgs_mapArgs]⟩
    rw [apply_chain]
    refine .chain ⟨hrule.ne_nil (by simpa using holds.ne_nil), fun c hc => ?_⟩
      (hrule.throughout hargs)
    exact (hrule.comesFrom hc).isOver hcalls hargs

/-- **Normalising.** A text that is not blank is normalised over its alphabet and not to nothing. -/
theorem isFragment_normaliseText {t : Text} (ht : Over P t) (hink : allBlank t = false) :
    IsFragment P (normaliseText t) := by
  have hbare := (isOver_parse ht hink).apply hmarks rearranges_bareRule
  exact (hbare.apply hmarks rearranges_hoistRule).isFragment_render hmarks

end

end Expression

end ModelSchemas

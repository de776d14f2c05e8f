import ModelSchemas.Proofs.Expression.CallText

/-!
# Canonical trees

A canonical tree is a chain of calls with proper names and plain generic arguments, whose arguments
are canonical again or raw text that reading keeps as it is. Reading undoes writing on canonical
trees, and what is read as a chain with plain generic arguments is canonical.
-/

namespace ModelSchemas

namespace Expression

/-! ## Canonical trees -/

namespace Node

/-- A canonical tree, or raw text that may stand as an argument in one. -/
inductive IsCanonicalPart : Node → Prop where
  | raw {text : Text} (hne : text ≠ []) (hparse : parse text = .raw text)
      (hsplit : splitTopLevel ',' text = some [text]) : IsCanonicalPart (.raw text)
  | chain {leadingDot : Bool} {calls : List Call} (hne : calls ≠ [])
      (hnames : ∀ c ∈ calls, IsName c.name)
      (htypeArgs : ∀ c ∈ calls, ∀ t, c.typeArgs = some t → IsPlainTypeArgs t)
      (hargs : ∀ c ∈ calls, ∀ args, c.args? = some args → ∀ a ∈ args, IsCanonicalPart a) :
      IsCanonicalPart (.chain leadingDot calls)

/-- Whether a tree is a chain. -/
def isChain : Node → Bool
  | raw _ => false
  | chain _ _ => true

/-- A canonical tree. -/
def IsCanonical (n : Node) : Prop := n.isChain ∧ n.IsCanonicalPart

/-- All generic arguments in a tree, at any depth, are plain. -/
inductive HasPlainTypeArgs : Node → Prop where
  | raw (text : Text) : HasPlainTypeArgs (.raw text)
  | chain {leadingDot : Bool} {calls : List Call}
      (htypeArgs : ∀ c ∈ calls, ∀ t, c.typeArgs = some t → IsPlainTypeArgs t)
      (hargs : ∀ c ∈ calls, ∀ args, c.args? = some args → ∀ a ∈ args, HasPlainTypeArgs a) :
      HasPlainTypeArgs (.chain leadingDot calls)

/-- A tree that is found again in its text, and whose text may stand as an argument. -/
structure IsRecoverable (n : Node) : Prop where
  parse_render : parse n.render = n
  isWhole : IsWhole ',' n.render
  hasInkAtEnds : n.render.HasInkAtEnds
  ne_nil : n.render ≠ []

end Node

/-! ## Calls -/

namespace Call

/-- A call that writes a proper name and delimited generic arguments, and whose arguments are
recoverable. -/
structure IsRecoverable (c : Call) : Prop where
  name : IsName c.name
  typeArgs : ∀ t, c.typeArgs = some t → IsDelimited t
  args : ∀ args, c.args? = some args → ∀ a ∈ args, a.IsRecoverable

/-- The texts of the arguments. -/
def argTexts (c : Call) : Option (List Text) := c.args?.map (List.map Node.render)

theorem render_eq_callText (c : Call) : c.render = callText c.name c.typeArgs c.argTexts := by
  cases c with
  | member name typeArgs =>
    rw [Call.render]
    simp [callText, Call.name, Call.typeArgs, argTexts, args?, argumentList]
  | invoke name typeArgs args =>
    rw [Call.render, renderNodes_eq_map]
    simp [callText, Call.name, Call.typeArgs, argTexts, args?, argumentList]

namespace IsRecoverable

variable {c : Call} (h : c.IsRecoverable)

include h

theorem areCallParts : AreCallParts c.name c.typeArgs c.argTexts := by
  have hmem : ∀ ts, c.argTexts = some ts → ∀ t ∈ ts,
      ∃ a : Node, a.IsRecoverable ∧ a.render = t := by
    intro ts hts t ht
    obtain ⟨args, hargs, rfl⟩ := Option.map_eq_some_iff.mp hts
    obtain ⟨a, ha, rfl⟩ := List.mem_map.mp ht
    exact ⟨a, h.args args hargs a ha, rfl⟩
  refine ⟨h.name, h.typeArgs, fun ts hts t ht => ?_, fun ts hts t ht => ?_⟩
  · obtain ⟨a, ha, rfl⟩ := hmem ts hts t ht
    exact ha.isWhole
  · obtain ⟨a, ha, rfl⟩ := hmem ts hts t ht
    exact ha.hasInkAtEnds.allBlank ha.ne_nil

/-- The call is read down to the texts of its arguments. -/
theorem read?_render :
    CallOutline.read? c.render = some ⟨c.name, c.typeArgs, c.argTexts.map spacedRest⟩ := by
  rw [render_eq_callText]
  exact h.areCallParts.read?_eq

/-- Reading the arguments gives the call back. -/
theorem toCall_eq :
    (⟨c.name, c.typeArgs, c.argTexts.map spacedRest⟩ : CallOutline).toCall parse = c := by
  have hspaced : ∀ texts : List Text, (spacedRest texts).map parse = texts.map parse := by
    intro texts
    cases texts with
    | nil => rfl
    | cons first rest =>
      have hblank : Text.allBlank [' '] := by decide
      have hparse : ∀ t : Text, parse (' ' :: t) = parse t :=
        fun t => parse_congr (Text.trim_append_of_allBlank hblank t)
      simp [spacedRest, hparse]
  cases c with
  | member name typeArgs => rfl
  | invoke name typeArgs args =>
    have hargs : (args.map Node.render).map parse = args := by
      rw [List.map_map]
      have heq : ∀ a ∈ args, (parse ∘ Node.render) a = id a :=
        fun a ha => (h.args args rfl a ha).parse_render
      rw [List.map_congr_left heq, List.map_id]
    show Call.invoke name typeArgs ((spacedRest (args.map Node.render)).map parse) = _
    rw [hspaced, hargs]

end IsRecoverable

end Call

/-! ## Chains -/

/-- The segments between the dots of a chain: an empty one stands for a leading dot. -/
def chainSegments (leadingDot : Bool) (calls : List Call) : List Text :=
  (if leadingDot then [[]] else []) ++ calls.map Call.render

theorem render_chain (leadingDot : Bool) {calls : List Call} (hne : calls ≠ []) :
    (Node.chain leadingDot calls).render =
      List.intercalate ['.'] (chainSegments leadingDot calls) := by
  rw [Node.render, renderCalls_eq_map, chainSegments]
  cases leadingDot with
  | false => rfl
  | true => exact (Text.intercalate_nil_first ['.'] (by simpa using hne)).symm

section

variable {leadingDot : Bool} {calls : List Call} (h : ∀ c ∈ calls, c.IsRecoverable)

include h

theorem forall_mem_chainSegments {P : Text → Prop} (hnil : P [])
    (hcall : ∀ {name : Text} {typeArgs : Option Text} {texts : Option (List Text)},
      AreCallParts name typeArgs texts → P (callText name typeArgs texts)) :
    ∀ segment ∈ chainSegments leadingDot calls, P segment := by
  intro segment hsegment
  rcases List.mem_append.mp hsegment with hdot | hsegment
  · cases leadingDot with
    | false => cases hdot
    | true =>
      cases List.mem_singleton.mp hdot
      exact hnil
  · obtain ⟨c, hc, rfl⟩ := List.mem_map.mp hsegment
    rw [Call.render_eq_callText]
    exact hcall (h c hc).areCallParts

/-- A chain is passed over like its calls. -/
theorem isWhole_render_chain (hne : calls ≠ []) :
    IsWhole ',' (Node.chain leadingDot calls).render := by
  rw [render_chain leadingDot hne]
  have hdot : IsPassable ',' ['.'] := by
    refine isPassable_of_isOrdinary fun c hc => ?_
    cases List.mem_singleton.mp hc
    decide
  refine (isPassable_intercalate hdot (forall_mem_chainSegments h isPassable_nil ?_)).isWhole
  exact fun hparts => hparts.isPassable (.inr rfl)

theorem hasInkAtEnds_render_chain (hne : calls ≠ []) :
    (Node.chain leadingDot calls).render.HasInkAtEnds := by
  rw [render_chain leadingDot hne]
  have hdot : Text.HasInkAtEnds ['.'] := Text.hasInkAtEnds_singleton (by decide)
  refine Text.hasInkAtEnds_intercalate hdot
    (forall_mem_chainSegments h Text.hasInkAtEnds_nil ?_)
  exact fun hparts => hparts.hasInkAtEnds

theorem splitTopLevel_render_chain (hne : calls ≠ []) :
    splitTopLevel '.' (Node.chain leadingDot calls).render =
      some (chainSegments leadingDot calls) := by
  rw [render_chain leadingDot hne]
  refine splitTopLevel_intercalate isSeparator_dot ?_ (forall_mem_chainSegments h isWhole_nil ?_)
  · simp [chainSegments, hne]
  · exact fun hparts => (hparts.isPassable (.inl rfl)).isWhole

/-- The calls are read from their segments. -/
theorem ofSegments_chainSegments (hne : calls ≠ []) :
    Outline.ofSegments (chainSegments leadingDot calls) =
      some ⟨leadingDot, calls.map fun c => ⟨c.name, c.typeArgs, c.argTexts.map spacedRest⟩⟩ := by
  have hread : ((calls.map Call.render).mapM fun segment =>
      CallOutline.read? (Text.trim segment)) =
        some (calls.map fun c => ⟨c.name, c.typeArgs, c.argTexts.map spacedRest⟩) := by
    rw [mapM_eq_some_iff, List.forall₂_map_left_iff, List.forall₂_map_right_iff, List.forall₂_same]
    intro c hc
    have hink : c.render.HasInkAtEnds := by
      rw [Call.render_eq_callText]
      exact (h c hc).areCallParts.hasInkAtEnds
    rw [hink.trim_eq_self]
    exact (h c hc).read?_render
  cases leadingDot with
  | true =>
    have hsegments : chainSegments true calls = [] :: calls.map Call.render := rfl
    have hblank : Text.allBlank [] = true := rfl
    have hne' : calls.map Call.render ≠ [] := by simpa using hne
    rw [hsegments, Outline.ofSegments_of_allBlank hblank hne', hread]
    rfl
  | false =>
    obtain ⟨first, rest, rfl⟩ := List.exists_cons_of_ne_nil hne
    have hsegments : chainSegments false (first :: rest) =
        first.render :: rest.map Call.render := rfl
    have hparts := (h first List.mem_cons_self).areCallParts
    have hfirst : Text.allBlank first.render = false := by
      rw [Call.render_eq_callText]
      exact hparts.hasInkAtEnds.allBlank hparts.ne_nil
    rw [hsegments, Outline.ofSegments_of_hasInk hfirst, ← List.map_cons, hread]
    rfl

theorem render_chain_ne_nil (hne : calls ≠ []) : (Node.chain leadingDot calls).render ≠ [] := by
  obtain ⟨first, rest, rfl⟩ := List.exists_cons_of_ne_nil hne
  have hfirst : first.render ≠ [] := by
    rw [Call.render_eq_callText]
    exact (h first List.mem_cons_self).areCallParts.ne_nil
  rw [Node.render, renderCalls_eq_map, List.map_cons]
  intro hnil
  exact Text.intercalate_ne_nil ['.'] hfirst _ (List.append_eq_nil_iff.mp hnil).2

/-- **One level of a chain** is read back from its text. -/
theorem parse_render_chain (hne : calls ≠ []) :
    parse (Node.chain leadingDot calls).render = .chain leadingDot calls := by
  have houtline : outline (Node.chain leadingDot calls).render =
      some ⟨leadingDot, calls.map fun c => ⟨c.name, c.typeArgs, c.argTexts.map spacedRest⟩⟩ := by
    rw [outline_of_hasInkAtEnds (hasInkAtEnds_render_chain h hne) (render_chain_ne_nil h hne),
      splitTopLevel_render_chain h hne]
    exact ofSegments_chainSegments h hne
  have hcalls : (calls.map fun c => (⟨c.name, c.typeArgs, c.argTexts.map spacedRest⟩ :
      CallOutline)).map (CallOutline.toCall parse) = calls := by
    rw [List.map_map]
    have heq : ∀ c ∈ calls, (CallOutline.toCall parse ∘ fun c : Call =>
        ⟨c.name, c.typeArgs, c.argTexts.map spacedRest⟩) c = id c := fun c hc => (h c hc).toCall_eq
    rw [List.map_congr_left heq, List.map_id]
  rw [parse_eq, houtline]
  exact congrArg (Node.chain leadingDot) hcalls

theorem isRecoverable_chain (hne : calls ≠ []) : (Node.chain leadingDot calls).IsRecoverable where
  parse_render := parse_render_chain h hne
  isWhole := isWhole_render_chain h hne
  hasInkAtEnds := hasInkAtEnds_render_chain h hne
  ne_nil := render_chain_ne_nil h hne

end

/-! ## The round trip -/

/-- Canonical parts are recoverable, level by level. -/
theorem Node.IsCanonicalPart.isRecoverable {n : Node} (h : n.IsCanonicalPart) :
    n.IsRecoverable := by
  -- the hypothesis for the arguments of a chain is just what makes its calls recoverable
  induction h with
  | raw hne hparse hsplit =>
    refine ⟨hparse, (isWhole_iff_split isSeparator_comma).mpr hsplit, ?_, hne⟩
    exact Text.hasInkAtEnds_iff.mpr (eq_trim_of_parse_eq_raw hparse).symm
  | chain hne hnames htypeArgs _ ih =>
    refine isRecoverable_chain (fun c hc => ⟨hnames c hc, fun t ht => ?_, ih c hc⟩) hne
    exact (htypeArgs c hc t ht).isDelimited

/-- An argument text that reading keeps as it is may stand in a canonical tree. -/
theorem IsArgumentText.isCanonicalPart {length : Nat} {t r : Text} (h : IsArgumentText length t)
    (hraw : parse t = .raw r) : (Node.raw r).IsCanonicalPart := by
  obtain rfl := eq_trim_of_parse_eq_raw hraw
  refine .raw ?_ ((parse_trim t).trans hraw) ?_
  · intro hnil
    have hink := h.hasInk
    rw [Text.trim_eq_nil_iff.mp hnil] at hink
    cases hink
  · exact ((isWhole_trim_iff isSeparator_comma).mpr h.isWhole).split

/-- What is read as a chain with plain generic arguments is canonical. -/
theorem isCanonicalPart_parse {t : Text} (hchain : (parse t).isChain)
    (hplain : (parse t).HasPlainTypeArgs) : (parse t).IsCanonicalPart := by
  -- the induction is on the length of the text: arguments are shorter
  induction hlength : t.length using Nat.strong_induction_on generalizing t with
  | _ length ih =>
    have hparse := parse_eq t
    cases houtline : outline t with
    | none =>
      rw [hparse, houtline] at hchain
      cases hchain
    | some o =>
      obtain ⟨hne, hcalls⟩ := isReading_of_outline houtline
      rw [houtline] at hparse
      rw [hparse] at hplain ⊢
      cases hplain with
      | chain htypeArgs hargs =>
        refine .chain (by simpa using hne) ?_ htypeArgs ?_
        · intro c hc
          obtain ⟨outlined, houtlined, rfl⟩ := List.mem_map.mp hc
          rw [CallOutline.name_toCall]
          exact (hcalls outlined houtlined).name
        · intro c hc args hsome a ha
          have hplainArg := hargs c hc args hsome a ha
          obtain ⟨outlined, houtlined, rfl⟩ := List.mem_map.mp hc
          rw [CallOutline.args?_toCall] at hsome
          obtain ⟨texts, htexts, rfl⟩ := Option.map_eq_some_iff.mp hsome
          obtain ⟨u, hu, rfl⟩ := List.mem_map.mp ha
          have harg := (hcalls outlined houtlined).args texts htexts u hu
          -- raw arguments need no hypothesis: what was cut at the commas is whole
          cases hread : parse u with
          | raw r => exact harg.isCanonicalPart hread
          | chain leadingDot calls =>
            rw [← hread]
            refine ih u.length (hlength ▸ harg.length_lt) ?_ hplainArg rfl
            rw [hread]
            rfl

/-- **Round trip.** Reading undoes writing on canonical trees of any depth. What is read as a chain
whose generic arguments are plain at all depths is canonical, so that writing and reading it again
changes nothing. -/
theorem parse_render_canonical :
    (∀ n : Node, n.IsCanonical → parse n.render = n) ∧
      ∀ t : Text, (parse t).isChain → (parse t).HasPlainTypeArgs →
        (parse t).IsCanonical ∧ parse (parse t).render = parse t := by
  have hround : ∀ n : Node, n.IsCanonical → parse n.render = n :=
    fun n hn => hn.2.isRecoverable.parse_render
  refine ⟨hround, fun t hchain hplain => ?_⟩
  have hcanonical : (parse t).IsCanonical := ⟨hchain, isCanonicalPart_parse hchain hplain⟩
  exact ⟨hcanonical, hround _ hcanonical⟩

/-- A chain with generic arguments, raw text and a chain with a leading dot. -/
def sampleTree : Node :=
  .chain false [.member "z" none,
    .invoke "f" (some "string") [.raw "1.5", .chain true [.invoke "g" none []]]]

/-- The same with blanks between its parts. -/
def sampleText : Text := " z . f < string > ( 1.5 , . g ( ) )"

theorem parse_sampleText : parse sampleText = sampleTree := by
  have hwhole : outline sampleText = some ⟨false, [⟨"z", none, none⟩,
      ⟨"f", some "string", some [" 1.5 ", " . g ( ) "]⟩]⟩ := by decide +kernel
  have hraw : outline " 1.5 " = none := by decide +kernel
  have hchain : outline " . g ( ) " = some ⟨true, [⟨"g", none, some []⟩]⟩ := by decide +kernel
  have htrim : Text.trim " 1.5 " = "1.5" := by decide +kernel
  have hargs : List.map parse [" 1.5 ", " . g ( ) "] =
      [.raw "1.5", .chain true [.invoke "g" none []]] := by
    rw [List.map_cons, List.map_cons, parse_eq " 1.5 ", parse_eq " . g ( ) ", hraw, hchain, htrim]
    rfl
  rw [parse_eq, hwhole]
  show Node.chain false [.member "z" none,
    .invoke "f" (some "string") (List.map parse [" 1.5 ", " . g ( ) "])] = _
  rw [hargs]
  rfl

theorem hasPlainTypeArgs_sampleTree : sampleTree.HasPlainTypeArgs := by
  have hplain : IsPlainTypeArgs "string" := by
    have hall : "string".toList.all (fun c => isPlain c && c ≠ '<' && c ≠ '>' && c ≠ '=') := by
      decide +kernel
    refine ⟨by decide +kernel, fun c hc => ?_⟩
    simpa [and_assoc] using List.all_eq_true.mp hall c hc
  refine .chain (fun c hc t ht => ?_) (fun c hc args hargs a ha => ?_)
  · simp only [List.mem_cons, List.not_mem_nil, or_false] at hc
    rcases hc with rfl | rfl
    · cases ht
    · cases ht
      exact hplain
  · simp only [List.mem_cons, List.not_mem_nil, or_false] at hc
    rcases hc with rfl | rfl
    · cases hargs
    · cases hargs
      simp only [List.mem_cons, List.not_mem_nil, or_false] at ha
      rcases ha with rfl | rfl
      · exact .raw _
      · refine .chain (fun c hc t ht => ?_) (fun c hc args hargs a ha => ?_)
        · cases List.mem_singleton.mp hc
          cases ht
        · cases List.mem_singleton.mp hc
          cases hargs
          cases ha

/-- The sample is canonical and found again in its text. -/
theorem sample_round_trip :
    sampleTree.IsCanonical ∧ parse sampleTree.render = sampleTree ∧
      (parse sampleText).isChain ∧ (parse sampleText).HasPlainTypeArgs ∧
        parse (parse sampleText).render = parse sampleText := by
  have hchain : (parse sampleText).isChain := by
    rw [parse_sampleText]
    rfl
  have hplain : (parse sampleText).HasPlainTypeArgs := by
    rw [parse_sampleText]
    exact hasPlainTypeArgs_sampleTree
  obtain ⟨hcanonical, hround⟩ := parse_render_canonical.2 sampleText hchain hplain
  rw [parse_sampleText] at hcanonical
  exact ⟨hcanonical, parse_render_canonical.1 sampleTree hcanonical, hchain, hplain, hround⟩

end Expression

end ModelSchemas

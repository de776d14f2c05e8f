import ModelSchemas.Proofs.Expression.Literal

/-!
# Whole trees

The arguments of a chain are expressions, and so are the values of the literals that raw text may
hold, though the tree does not show them. What is said of a whole tree is said of these as well.
Both are shorter than the text they stand in, which gives an induction on texts.
-/

namespace ModelSchemas

namespace Expression

/-! ## Induction on texts -/

/-- What passes from the values of a literal and from the arguments of a chain to the text that
holds them is true of every text. -/
theorem parse_induction {P : Text → Prop}
    (raw : ∀ t, outline t = none → (∀ v ∈ literalValues (Text.trim t), P v) → P t)
    (chain : ∀ t o, outline t = some o →
      (∀ c ∈ o.calls, ∀ texts, c.args = some texts → ∀ u ∈ texts, P u) → P t)
    (t : Text) : P t := by
  induction hlength : t.length using Nat.strong_induction_on generalizing t with
  | h length ih =>
    cases ho : outline t with
    | none =>
      refine raw t ho fun v hv => ih v.length ?_ v rfl
      have hlt := (isValue_of_mem_literalValues hv).2
      have hle := Text.length_trim_le t
      omega
    | some o =>
      refine chain t o ho fun c hc texts htexts u hu => ih u.length ?_ u rfl
      have hlt := (((isReading_of_outline ho).2 c hc).args texts htexts u hu).length_lt
      omega

theorem parse_of_outline_eq_none {t : Text} (h : outline t = none) :
    parse t = .raw (Text.trim t) := by
  rw [parse_eq, h]

theorem parse_of_outline_eq_some {t : Text} {o : Outline} (h : outline t = some o) :
    parse t = .chain o.leadingDot (o.calls.map (CallOutline.toCall parse)) := by
  rw [parse_eq, h]
  rfl

/-- The arguments of a call that was read were read from the texts of its outline. -/
theorem exists_text_of_mem_args {c : CallOutline} {args : List Node}
    (hargs : (c.toCall parse).args? = some args) {a : Node} (ha : a ∈ args) :
    ∃ texts, c.args = some texts ∧ ∃ u ∈ texts, parse u = a := by
  rw [CallOutline.args?_toCall] at hargs
  obtain ⟨texts, htexts, rfl⟩ := Option.map_eq_some_iff.mp hargs
  obtain ⟨u, hu, rfl⟩ := List.mem_map.mp ha
  exact ⟨texts, htexts, u, hu, rfl⟩

/-! ## Properties of whole trees -/

/-- All raw texts and all chains of the tree have a property, those in its arguments and in the
values of its literals included. -/
inductive Node.Throughout (onRaw : Text → Prop) (onChain : Bool → List Call → Prop) :
    Node → Prop where
  | raw {text : Text} (holds : onRaw text)
      (values : ∀ v ∈ literalValues text, Throughout onRaw onChain (parse v)) :
      Throughout onRaw onChain (.raw text)
  | chain {leadingDot : Bool} {calls : List Call} (holds : onChain leadingDot calls)
      (args : ∀ c ∈ calls, ∀ args, c.args? = some args →
        ∀ a ∈ args, Throughout onRaw onChain a) :
      Throughout onRaw onChain (.chain leadingDot calls)

/-- The same of all arguments of a call. -/
def Call.Throughout (onRaw : Text → Prop) (onChain : Bool → List Call → Prop) (c : Call) : Prop :=
  ∀ args, c.args? = some args → ∀ a ∈ args, a.Throughout onRaw onChain

section

variable {onRaw onRaw' : Text → Prop} {onChain onChain' : Bool → List Call → Prop}

theorem Node.Throughout.of_raw {text : Text} (h : (Node.raw text).Throughout onRaw onChain) :
    onRaw text ∧ ∀ v ∈ literalValues text, (parse v).Throughout onRaw onChain := by
  cases h with
  | raw holds values => exact ⟨holds, values⟩

theorem Node.Throughout.of_chain {leadingDot : Bool} {calls : List Call}
    (h : (Node.chain leadingDot calls).Throughout onRaw onChain) :
    onChain leadingDot calls ∧ ∀ c ∈ calls, c.Throughout onRaw onChain := by
  cases h with
  | chain holds args => exact ⟨holds, args⟩

/-- What follows from a property at every place follows throughout. -/
theorem Node.Throughout.imp {n : Node} (h : n.Throughout onRaw onChain)
    (hraw : ∀ text, onRaw text → onRaw' text)
    (hchain : ∀ leadingDot calls, onChain leadingDot calls → onChain' leadingDot calls) :
    n.Throughout onRaw' onChain' := by
  induction h with
  | raw holds _ ih => exact .raw (hraw _ holds) ih
  | chain holds _ ih => exact .chain (hchain _ _ holds) ih

theorem Node.Throughout.and {n : Node} (h : n.Throughout onRaw onChain)
    (h' : n.Throughout onRaw' onChain') :
    n.Throughout (fun text => onRaw text ∧ onRaw' text)
      fun leadingDot calls => onChain leadingDot calls ∧ onChain' leadingDot calls := by
  induction h with
  | raw holds _ ih =>
    obtain ⟨holds', values'⟩ := h'.of_raw
    exact .raw ⟨holds, holds'⟩ fun v hv => ih v hv (values' v hv)
  | chain holds _ ih =>
    obtain ⟨holds', args'⟩ := h'.of_chain
    exact .chain ⟨holds, holds'⟩ fun c hc args hargs a ha =>
      ih c hc args hargs a ha (args' c hc args hargs a ha)

/-- What holds of everything that is read holds throughout. -/
theorem throughout_parse (hraw : ∀ t, outline t = none → onRaw (Text.trim t))
    (hchain : ∀ t o, outline t = some o →
      onChain o.leadingDot (o.calls.map (CallOutline.toCall parse))) (t : Text) :
    (parse t).Throughout onRaw onChain := by
  induction t using parse_induction with
  | raw t ho ih =>
    rw [parse_of_outline_eq_none ho]
    exact .raw (hraw t ho) ih
  | chain t o ho ih =>
    rw [parse_of_outline_eq_some ho]
    refine .chain (hchain t o ho) fun c hc args hargs a ha => ?_
    obtain ⟨outlined, houtlined, rfl⟩ := List.mem_map.mp hc
    obtain ⟨texts, htexts, u, hu, rfl⟩ := exists_text_of_mem_args hargs ha
    exact ih outlined houtlined texts htexts u hu

/-- A call without arguments has every property. -/
theorem Call.throughout_emptied (name : Text) (typeArgs : Option Text) :
    (Call.invoke name typeArgs []).Throughout onRaw onChain := by
  intro args hargs
  cases hargs
  simp

end

end Expression

end ModelSchemas

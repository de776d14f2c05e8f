import ModelSchemas.Proofs.Expression.Throughout

/-!
# Applying rules

Applying a rule works on a raw text through the values of its literal and on a chain through its
arguments, without a bound on the depth. The two rules of normalisation only rearrange calls: what
they give comes from the calls they are given, or is one of them with an empty argument list.
-/

namespace ModelSchemas

namespace Expression

/-! ## One step of an application -/

namespace Call

/-- The call with its arguments changed. -/
def mapArgs (f : Node → Node) : Call → Call
  | member name typeArgs => member name typeArgs
  | invoke name typeArgs args => invoke name typeArgs (args.map f)

theorem transform_eq_mapArgs (onRaw : Text → Text) (rule : Rule) (c : Call) :
    c.transform onRaw rule = c.mapArgs (Node.transform onRaw rule) := by
  cases c with
  | member name typeArgs => rw [Call.transform, mapArgs]
  | invoke name typeArgs args => rw [Call.transform, mapArgs, transformNodes_eq_map]

@[simp] theorem name_mapArgs (f : Node → Node) (c : Call) : (c.mapArgs f).name = c.name := by
  cases c <;> rfl

@[simp] theorem typeArgs_mapArgs (f : Node → Node) (c : Call) :
    (c.mapArgs f).typeArgs = c.typeArgs := by
  cases c <;> rfl

@[simp] theorem args?_mapArgs (f : Node → Node) (c : Call) :
    (c.mapArgs f).args? = c.args?.map (List.map f) := by
  cases c <;> rfl

theorem mapArgs_congr {f g : Node → Node} {c : Call}
    (h : ∀ args, c.args? = some args → ∀ a ∈ args, f a = g a) : c.mapArgs f = c.mapArgs g := by
  cases c with
  | member name typeArgs => rfl
  | invoke name typeArgs args => rw [mapArgs, mapArgs, List.map_congr_left (h args rfl)]

theorem mapArgs_id {f : Node → Node} {c : Call}
    (h : ∀ args, c.args? = some args → ∀ a ∈ args, f a = a) : c.mapArgs f = c := by
  cases c with
  | member name typeArgs => rfl
  | invoke name typeArgs args => rw [mapArgs, List.map_congr_left (h args rfl), List.map_id']

theorem mapArgs_mapArgs (f g : Node → Node) (c : Call) :
    (c.mapArgs f).mapArgs g = c.mapArgs (g ∘ f) := by
  cases c with
  | member name typeArgs => rfl
  | invoke name typeArgs args => rw [mapArgs, mapArgs, mapArgs, List.map_map]

end Call

theorem transform_chain (onRaw : Text → Text) (rule : Rule) (leadingDot : Bool)
    (calls : List Call) :
    (Node.chain leadingDot calls).transform onRaw rule =
      .chain leadingDot
        (rule leadingDot (calls.map (Call.mapArgs (Node.transform onRaw rule)))) := by
  rw [Node.transform, transformCalls_eq_map, funext (Call.transform_eq_mapArgs onRaw rule)]

/-- The raw texts in what was read are not longer than the text. -/
theorem transform_parse_congr {onRaw onRaw' : Text → Text} (rule : Rule) {t : Text}
    (h : ∀ u, u.length ≤ t.length → onRaw u = onRaw' u) :
    (parse t).transform onRaw rule = (parse t).transform onRaw' rule := by
  induction t using parse_induction with
  | raw t ho _ =>
    rw [parse_of_outline_eq_none ho, Node.transform, Node.transform, h _ (Text.length_trim_le t)]
  | chain t o ho ih =>
    rw [parse_of_outline_eq_some ho, transform_chain, transform_chain]
    have hcalls : ∀ c ∈ o.calls.map (CallOutline.toCall parse),
        c.mapArgs (Node.transform onRaw rule) = c.mapArgs (Node.transform onRaw' rule) := by
      intro c hc
      obtain ⟨outlined, houtlined, rfl⟩ := List.mem_map.mp hc
      refine Call.mapArgs_congr fun args hargs a ha => ?_
      obtain ⟨texts, htexts, u, hu, rfl⟩ := exists_text_of_mem_args hargs ha
      have hpart := ((isReading_of_outline ho).2 outlined houtlined).args texts htexts u hu
      have hlt := hpart.length_lt
      exact ih outlined houtlined texts htexts u hu fun w hw => h w (by omega)
    rw [List.map_congr_left hcalls]

/-- Any number of levels that the length allows gives the same text. -/
theorem transformLiterals_eq (rule : Rule) {depth depth' : Nat} {t : Text} (h : t.length ≤ depth)
    (h' : t.length ≤ depth') :
    transformLiterals rule depth t = transformLiterals rule depth' t := by
  induction depth generalizing depth' t with
  | zero =>
    obtain rfl : t = [] := List.length_eq_zero_iff.mp (Nat.le_zero.mp h)
    cases depth' <;> rfl
  | succ depth ih =>
    cases depth' with
    | zero =>
      obtain rfl : t = [] := List.length_eq_zero_iff.mp (Nat.le_zero.mp h')
      rfl
    | succ depth' =>
      rw [transformLiterals, transformLiterals]
      refine transformLiteral_congr fun v hv => ?_
      have hlt := (isValue_of_mem_literalValues hv).2
      -- the values are shorter than the text, so one level less is enough for them
      have hcongr : (parse v).transform (transformLiterals rule depth) rule =
          (parse v).transform (transformLiterals rule depth') rule :=
        transform_parse_congr rule fun u hu => ih (by omega) (by omega)
      rw [hcongr]

/-- **One step on raw text.** The rule is applied to the values of a literal. -/
theorem apply_raw (rule : Rule) (t : Text) :
    (Node.raw t).apply rule =
      .raw (transformLiteral (fun v => ((parse v).apply rule).render) t) := by
  rw [Node.apply, Node.transform, transformLiterals_eq rule (Nat.le_refl _) (Nat.le_succ _),
    transformLiterals]
  refine congrArg Node.raw (transformLiteral_congr fun v hv => ?_)
  have hlt := (isValue_of_mem_literalValues hv).2
  rw [Node.apply,
    transform_parse_congr rule fun u hu => transformLiterals_eq rule (by omega) (Nat.le_refl _)]

/-- **One step on a chain.** The rule is applied to the arguments and then to the calls. -/
theorem apply_chain (rule : Rule) (leadingDot : Bool) (calls : List Call) :
    (Node.chain leadingDot calls).apply rule =
      .chain leadingDot (rule leadingDot (calls.map (Call.mapArgs (Node.apply rule)))) :=
  transform_chain _ rule leadingDot calls

/-! ## What rules give -/

/-- Where a call may come from when calls are rearranged. -/
inductive Call.ComesFrom (calls : List Call) : Call → Prop where
  | same {c : Call} (hc : c ∈ calls) : ComesFrom calls c
  | wrapped {name : Text} {typeArgs : Option Text} {inner : List Call} {c : Call}
      (hwrapper : .invoke name typeArgs [.chain true inner] ∈ calls) (hc : c ∈ inner) :
      ComesFrom calls c
  | emptied {c : Call} (hc : c ∈ calls) : ComesFrom calls (.invoke c.name c.typeArgs [])

/-- A rule that rearranges the calls of a chain and leaves some. -/
structure Rule.Rearranges (rule : Rule) : Prop where
  ne_nil : ∀ {leadingDot calls}, calls ≠ [] → rule leadingDot calls ≠ []
  comesFrom : ∀ {leadingDot calls c}, c ∈ rule leadingDot calls → c.ComesFrom calls

section

variable {onRaw : Text → Prop} {onChain : Bool → List Call → Prop}

theorem Call.throughout_mapArgs {f : Node → Node} {c : Call}
    (h : ∀ args, c.args? = some args → ∀ a ∈ args, (f a).Throughout onRaw onChain) :
    (c.mapArgs f).Throughout onRaw onChain := by
  intro args hargs a ha
  rw [Call.args?_mapArgs] at hargs
  obtain ⟨old, hold, rfl⟩ := Option.map_eq_some_iff.mp hargs
  obtain ⟨b, hb, rfl⟩ := List.mem_map.mp ha
  exact h old hold b hb

theorem throughout_map_mapArgs {f : Node → Node} {calls : List Call}
    (h : ∀ c ∈ calls, ∀ args, c.args? = some args → ∀ a ∈ args, (f a).Throughout onRaw onChain) :
    ∀ c ∈ calls.map (Call.mapArgs f), c.Throughout onRaw onChain := by
  intro c hc
  obtain ⟨old, hold, rfl⟩ := List.mem_map.mp hc
  exact Call.throughout_mapArgs (h old hold)

theorem Call.ComesFrom.throughout {calls : List Call} {c : Call} (h : c.ComesFrom calls)
    (hcalls : ∀ c ∈ calls, c.Throughout onRaw onChain) : c.Throughout onRaw onChain := by
  cases h with
  | same hc => exact hcalls c hc
  | wrapped hwrapper hc =>
    exact (hcalls _ hwrapper _ rfl _ List.mem_cons_self).of_chain.2 c hc
  | emptied _ => exact Call.throughout_emptied _ _

/-- What holds throughout the transformed arguments of some calls holds throughout those that a rule
makes of them. -/
theorem Rule.Rearranges.throughout {rule : Rule} (hrule : rule.Rearranges) {leadingDot : Bool}
    {calls : List Call} (h : ∀ c ∈ calls, c.Throughout onRaw onChain) :
    ∀ c ∈ rule leadingDot calls, c.Throughout onRaw onChain :=
  fun _ hc => (hrule.comesFrom hc).throughout h

end

theorem Call.ComesFrom.mono {calls more : List Call} {c : Call} (h : c.ComesFrom calls)
    (hsub : ∀ c ∈ calls, c ∈ more) : c.ComesFrom more := by
  cases h with
  | same hc => exact .same (hsub c hc)
  | wrapped hwrapper hc => exact .wrapped (hsub _ hwrapper) hc
  | emptied hc => exact .emptied (hsub _ hc)

/-! ### Calling bare primitives -/

theorem comesFrom_invokePrimitive {calls : List Call} {c : Call} (hc : c ∈ calls) :
    c.invokePrimitive.ComesFrom calls := by
  cases c with
  | member name typeArgs =>
    rw [Call.invokePrimitive]
    split_ifs
    · exact .emptied hc
    · exact .same hc
  | invoke name typeArgs args => exact .same hc

theorem rearranges_bareRule : Rule.Rearranges bareRule where
  ne_nil {leadingDot calls} hne := by
    unfold bareRule
    split
    · split_ifs
      · exact List.cons_ne_nil _ _
      · exact List.cons_ne_nil _ _
    · exact hne
  comesFrom {leadingDot calls c} hc := by
    unfold bareRule at hc
    split at hc
    · rename_i head second rest
      split_ifs at hc
      · rcases List.mem_cons.mp hc with rfl | hc
        · exact .same List.mem_cons_self
        · rcases List.mem_cons.mp hc with rfl | hc
          · exact comesFrom_invokePrimitive (List.mem_cons_of_mem head List.mem_cons_self)
          · exact .same (List.mem_cons_of_mem head (List.mem_cons_of_mem second hc))
      · exact .same hc
    · exact .same hc

/-! ### Hoisting the array modifier -/

/-- A call is spliced if it wraps a chain that continues another, and kept otherwise. -/
theorem Call.unwrapArray_cases (c : Call) :
    (∃ typeArgs inner, c = .invoke arrayName typeArgs [.chain true inner] ∧
        c.unwrapArray = inner ++ [.invoke arrayName typeArgs []]) ∨ c.unwrapArray = [c] := by
  unfold Call.unwrapArray
  split
  · rename_i name typeArgs inner
    split_ifs with hname
    · left
      rw [hname]
      exact ⟨typeArgs, inner, rfl, rfl⟩
    · exact .inr rfl
  · exact .inr rfl

theorem unwrapArray_ne_nil (c : Call) : c.unwrapArray ≠ [] := by
  rcases c.unwrapArray_cases with ⟨typeArgs, inner, -, heq⟩ | heq
  · simp [heq]
  · simp [heq]

theorem comesFrom_unwrapArray {calls : List Call} {c part : Call} (hc : c ∈ calls)
    (hpart : part ∈ c.unwrapArray) : part.ComesFrom calls := by
  rcases c.unwrapArray_cases with ⟨typeArgs, inner, rfl, heq⟩ | heq
  · rw [heq] at hpart
    rcases List.mem_append.mp hpart with hpart | hpart
    · exact .wrapped hc hpart
    · cases List.mem_singleton.mp hpart
      exact .emptied hc
  · rw [heq] at hpart
    cases List.mem_singleton.mp hpart
    exact .same hc

theorem comesFrom_flatMap_unwrapArray {calls : List Call} {c : Call}
    (hc : c ∈ calls.flatMap Call.unwrapArray) : c.ComesFrom calls := by
  obtain ⟨call, hcall, hc⟩ := List.mem_flatMap.mp hc
  exact comesFrom_unwrapArray hcall hc

theorem flatMap_unwrapArray_ne_nil {calls : List Call} (hne : calls ≠ []) :
    calls.flatMap Call.unwrapArray ≠ [] := by
  obtain ⟨c, rest, rfl⟩ := List.exists_cons_of_ne_nil hne
  intro hnil
  exact unwrapArray_ne_nil c (List.append_eq_nil_iff.mp hnil).1

theorem rearranges_hoistRule : Rule.Rearranges hoistRule where
  ne_nil {leadingDot calls} hne := by
    unfold hoistRule
    split
    · split_ifs
      · exact List.cons_ne_nil _ _
      · exact flatMap_unwrapArray_ne_nil hne
    · exact flatMap_unwrapArray_ne_nil hne
  comesFrom {leadingDot calls c} hc := by
    unfold hoistRule at hc
    split at hc
    · rename_i head second rest
      split_ifs at hc
      · rcases List.mem_cons.mp hc with rfl | hc
        · exact .same List.mem_cons_self
        · rcases List.mem_cons.mp hc with rfl | hc
          · exact .same (List.mem_cons_of_mem head List.mem_cons_self)
          · refine (comesFrom_flatMap_unwrapArray hc).mono fun c hc => ?_
            exact List.mem_cons_of_mem head (List.mem_cons_of_mem second hc)
      · exact comesFrom_flatMap_unwrapArray hc
    · exact comesFrom_flatMap_unwrapArray hc

end Expression

end ModelSchemas

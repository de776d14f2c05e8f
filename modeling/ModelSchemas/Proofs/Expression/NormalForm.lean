import ModelSchemas.Proofs.Expression.Soundness

/-!
# Normal forms

A rule that changes no chain of a tree changes nothing in it, once the values of its literals are
written as they are read. After normalising, no wrapper is left to hoist, and calling the bare
primitives that hoisting may have brought to the front of a chain leaves it that way. So normalising
for the second time calls these primitives, and for the third time it changes nothing.
-/

namespace ModelSchemas

namespace Expression

open Text

/-! ## Fixed points -/

/-- Reading and writing the values of a literal changes nothing. -/
def IsFormatted (text : Text) : Prop := ∀ v ∈ literalValues text, (parse v).render = v

/-- A rule that changes no chain of a formatted tree leaves the tree as it is. -/
theorem Node.apply_eq_self {rule : Rule} {n : Node}
    (h : n.Throughout IsFormatted fun leadingDot calls => rule leadingDot calls = calls) :
    n.apply rule = n := by
  induction h with
  | raw holds _ ih =>
    rw [apply_raw]
    refine congrArg Node.raw (transformLiteral_eq_self fun v hv => ?_)
    rw [ih v hv]
    exact holds v hv
  | chain holds _ ih =>
    rename_i leadingDot calls _
    have hcalls : ∀ c ∈ calls, c.mapArgs (Node.apply rule) = id c :=
      fun c hc => Call.mapArgs_id (ih c hc)
    rw [apply_chain, List.map_congr_left hcalls, List.map_id, holds]

/-- **After a rule.** What a rule makes of the chains holds throughout the tree that it gives, which
is formatted. -/
theorem Node.IsSound.throughout_apply {rule : Rule} (hrule : rule.Rearranges)
    {before after : Bool → List Call → Prop}
    (hstep : ∀ leadingDot calls, before leadingDot calls →
      (∀ c ∈ calls.map (Call.mapArgs (Node.apply rule)), c.Throughout IsFormatted after) →
        after leadingDot (rule leadingDot (calls.map (Call.mapArgs (Node.apply rule)))))
    {n : Node} (hsound : n.IsSound) (h : n.Throughout (fun _ => True) before) :
    (n.apply rule).Throughout IsFormatted after := by
  unfold Node.IsSound at hsound
  induction hsound with
  | raw _ hvalues ih =>
    have hnew : ∀ v ∈ literalValues _, ((parse v).apply rule).IsSound :=
      fun v hv => Node.IsSound.apply hrule (hvalues v hv)
    have hslots : ∀ v ∈ literalValues _, IsValue ((parse v).apply rule).render :=
      fun v hv => (hnew v hv).isValue_render
    rw [apply_raw]
    constructor
    · rw [IsFormatted, literalValues_transformLiteral hslots, List.forall_mem_map]
      intro v hv
      rw [(hnew v hv).isRecoverable.parse_render]
    · rw [literalValues_transformLiteral hslots, List.forall_mem_map]
      intro v hv
      rw [(hnew v hv).isRecoverable.parse_render]
      exact ih v hv (h.of_raw.2 v hv)
  | chain _ _ ih =>
    rename_i leadingDot calls _ _
    obtain ⟨hbefore, hargs⟩ := h.of_chain
    have hnew : ∀ c ∈ calls.map (Call.mapArgs (Node.apply rule)),
        c.Throughout IsFormatted after :=
      throughout_map_mapArgs fun c hc args hsome a ha =>
        ih c hc args hsome a ha (hargs c hc args hsome a ha)
    rw [apply_chain]
    exact .chain (hstep leadingDot calls hbefore hnew) (hrule.throughout hnew)

/-! ## Called primitives -/

/-- No primitive of the chain is left to call. -/
def IsCalled (leadingDot : Bool) (calls : List Call) : Prop :=
  bareRule leadingDot calls = calls

theorem invokePrimitive_invokePrimitive (c : Call) :
    c.invokePrimitive.invokePrimitive = c.invokePrimitive := by
  cases c with
  | member name typeArgs =>
    rw [Call.invokePrimitive]
    split_ifs with hname
    · rfl
    · rw [Call.invokePrimitive, if_neg hname]
  | invoke name typeArgs args => rfl

theorem isCalled_bareRule (leadingDot : Bool) (calls : List Call) :
    IsCalled leadingDot (bareRule leadingDot calls) := by
  unfold IsCalled
  match calls with
  | [] => rfl
  | [_] => rfl
  | head :: second :: rest =>
    simp only [bareRule]
    split_ifs with hhead
    · simp only [hhead, if_true, invokePrimitive_invokePrimitive]
    · simp only [hhead, if_false, Bool.false_eq_true]

/-! ## Hoisted wrappers -/

/-- The call wraps a chain that continues another. -/
def Call.IsWrapper (c : Call) : Prop :=
  ∃ typeArgs inner, c = .invoke arrayName typeArgs [.chain true inner]

theorem unwrapArray_of_not_isWrapper {c : Call} (h : ¬c.IsWrapper) : c.unwrapArray = [c] := by
  rcases c.unwrapArray_cases with ⟨typeArgs, inner, heq, -⟩ | heq
  · exact absurd ⟨typeArgs, inner, heq⟩ h
  · exact heq

theorem isNamespace_eq_false_of_isWrapper {c : Call} (h : c.IsWrapper) : c.isNamespace = false := by
  obtain ⟨typeArgs, inner, rfl⟩ := h
  rfl

/-- The namespace at the start of a chain with the constructor behind it, which is no wrapper. -/
def constructorPart (leadingDot : Bool) (calls : List Call) : List Call :=
  if hasNamespaceHead leadingDot calls then calls.take 2 else []

/-- The other calls of a chain. -/
def modifierPart (leadingDot : Bool) (calls : List Call) : List Call :=
  if hasNamespaceHead leadingDot calls then calls.drop 2 else calls

theorem constructorPart_append_modifierPart (leadingDot : Bool) (calls : List Call) :
    constructorPart leadingDot calls ++ modifierPart leadingDot calls = calls := by
  unfold constructorPart modifierPart
  split_ifs
  · exact List.take_append_drop 2 calls
  · rfl

/-- A chain that continues another has modifiers only. -/
theorem modifierPart_true (calls : List Call) : modifierPart true calls = calls := by
  cases calls <;> rfl

theorem modifierPart_subset (leadingDot : Bool) (calls : List Call) :
    ∀ c ∈ modifierPart leadingDot calls, c ∈ calls := by
  intro c hc
  rw [← constructorPart_append_modifierPart leadingDot calls]
  exact List.mem_append_right _ hc

/-- The modifiers may be replaced. -/
theorem modifierPart_replaced (leadingDot : Bool) (calls more : List Call) :
    ∀ c ∈ modifierPart leadingDot (constructorPart leadingDot calls ++ more), c ∈ more := by
  intro c hc
  match calls with
  | [] => exact modifierPart_subset leadingDot more c hc
  | head :: rest =>
    cases hhead : hasNamespaceHead leadingDot (head :: rest) with
    | false =>
      rw [constructorPart, hhead] at hc
      exact modifierPart_subset leadingDot more c hc
    | true =>
      have hkept : constructorPart leadingDot (head :: rest) = head :: rest.take 1 := if_pos hhead
      have hhead' : hasNamespaceHead leadingDot (head :: (rest.take 1 ++ more)) = true := hhead
      rw [hkept, List.cons_append, modifierPart, if_pos hhead', List.drop_succ_cons,
        List.drop_append] at hc
      rcases List.mem_append.mp hc with hc | hc
      · rw [List.drop_take_self] at hc
        cases hc
      · exact List.mem_of_mem_drop hc

/-- Hoisting works on the modifiers. -/
theorem hoistRule_eq (leadingDot : Bool) (calls : List Call) :
    hoistRule leadingDot calls =
      constructorPart leadingDot calls ++
        (modifierPart leadingDot calls).flatMap Call.unwrapArray := by
  unfold constructorPart modifierPart
  match calls with
  | [] => rfl
  | [c] =>
    cases hhead : hasNamespaceHead leadingDot [c] with
    | false => rfl
    | true =>
      have hnamespace : c.isNamespace = true := (Bool.and_eq_true_iff.mp hhead).2
      have hwrapper : ¬c.IsWrapper := by
        intro hwrapper
        rw [isNamespace_eq_false_of_isWrapper hwrapper] at hnamespace
        cases hnamespace
      show [c].flatMap Call.unwrapArray = [c]
      rw [List.flatMap_singleton, unwrapArray_of_not_isWrapper hwrapper]
  | head :: second :: rest =>
    have hrule : hoistRule leadingDot (head :: second :: rest) =
        if hasNamespaceHead leadingDot (head :: second :: rest) then
          head :: second :: rest.flatMap Call.unwrapArray
        else (head :: second :: rest).flatMap Call.unwrapArray := rfl
    rw [hrule]
    cases hasNamespaceHead leadingDot (head :: second :: rest) <;> rfl

theorem hoistRule_of_no_head {leadingDot : Bool} {calls : List Call}
    (h : hasNamespaceHead leadingDot calls = false) :
    hoistRule leadingDot calls = calls.flatMap Call.unwrapArray := by
  rw [hoistRule_eq, constructorPart, modifierPart, h]
  rfl

/-- A chain that continues another does not start with the namespace. -/
theorem hasNamespaceHead_true (calls : List Call) : hasNamespaceHead true calls = false := by
  cases calls <;> rfl

/-- No wrapper of the chain is left to hoist. -/
def IsHoisted (leadingDot : Bool) (calls : List Call) : Prop :=
  ∀ c ∈ modifierPart leadingDot calls, ¬c.IsWrapper

theorem hoistRule_eq_self {leadingDot : Bool} {calls : List Call}
    (h : IsHoisted leadingDot calls) : hoistRule leadingDot calls = calls := by
  rw [hoistRule_eq, List.flatMap_congr fun c hc => unwrapArray_of_not_isWrapper (h c hc),
    List.flatMap_singleton', constructorPart_append_modifierPart]

/-- Nothing is left to hoist in the chains that stand as arguments of the call. -/
def Call.HasHoistedArgs (c : Call) : Prop :=
  ∀ args, c.args? = some args → ∀ leadingDot calls, .chain leadingDot calls ∈ args →
    IsHoisted leadingDot calls

/-- What moves out of a wrapper holds no wrapper, if nothing was left to hoist in it. -/
theorem not_isWrapper_of_mem_unwrapArray {c part : Call} (h : c.HasHoistedArgs)
    (hpart : part ∈ c.unwrapArray) : ¬part.IsWrapper := by
  rcases c.unwrapArray_cases with ⟨typeArgs, inner, rfl, heq⟩ | heq
  · rw [heq] at hpart
    rcases List.mem_append.mp hpart with hpart | hpart
    · have hinner : IsHoisted true inner := h _ rfl true inner List.mem_cons_self
      rw [IsHoisted, modifierPart_true] at hinner
      exact hinner part hpart
    · rw [List.mem_singleton.mp hpart]
      rintro ⟨typeArgs, inner, heq⟩
      cases heq
  · rw [heq] at hpart
    rw [List.mem_singleton.mp hpart]
    rintro ⟨typeArgs, inner, rfl⟩
    -- a wrapper is never left as it is
    have hlast := congrArg List.getLast? heq
    rw [Call.unwrapArray, if_pos rfl, List.getLast?_append] at hlast
    cases hlast

/-- Hoisting once is enough for a chain whose arguments are hoisted. -/
theorem isHoisted_hoistRule (leadingDot : Bool) {calls : List Call}
    (h : ∀ c ∈ calls, c.HasHoistedArgs) :
    IsHoisted leadingDot (hoistRule leadingDot calls) := by
  intro c hc
  rw [hoistRule_eq] at hc
  obtain ⟨call, hcall, hpart⟩ := List.mem_flatMap.mp (modifierPart_replaced leadingDot calls _ c hc)
  exact not_isWrapper_of_mem_unwrapArray (h call (modifierPart_subset leadingDot calls call hcall))
    hpart

/-! ### Calling primitives hoists nothing -/

theorem apply_eq_chain_iff {rule : Rule} {n : Node} {leadingDot : Bool} :
    (∃ calls, n.apply rule = .chain leadingDot calls) ↔ ∃ calls, n = .chain leadingDot calls := by
  cases n with
  | raw text =>
    rw [apply_raw]
    simp
  | chain dot calls =>
    rw [apply_chain]
    simp

/-- Applying a rule to the arguments makes no call a wrapper, and every wrapper stays one. -/
theorem isWrapper_mapArgs_iff {rule : Rule} {c : Call} :
    (c.mapArgs (Node.apply rule)).IsWrapper ↔ c.IsWrapper := by
  cases c with
  | member name typeArgs => rfl
  | invoke name typeArgs args =>
    constructor
    · rintro ⟨typeArgs, inner, heq⟩
      obtain ⟨rfl, rfl, hargs⟩ := Call.invoke.inj heq
      obtain ⟨a, rfl, ha⟩ := List.map_eq_singleton_iff.mp hargs
      obtain ⟨calls, rfl⟩ := apply_eq_chain_iff.mp ⟨inner, ha⟩
      exact ⟨_, calls, rfl⟩
    · rintro ⟨typeArgs, inner, heq⟩
      cases heq
      rw [Call.mapArgs, List.map_singleton, apply_chain]
      exact ⟨_, _, rfl⟩

theorem isNamespace_mapArgs (f : Node → Node) (c : Call) :
    (c.mapArgs f).isNamespace = c.isNamespace := by
  cases c <;> rfl

theorem hasNamespaceHead_mapArgs (f : Node → Node) (leadingDot : Bool) (calls : List Call) :
    hasNamespaceHead leadingDot (calls.map (Call.mapArgs f)) =
      hasNamespaceHead leadingDot calls := by
  cases calls with
  | nil => rfl
  | cons head rest =>
    show (!leadingDot && (head.mapArgs f).isNamespace) = _
    rw [isNamespace_mapArgs]
    rfl

theorem bareRule_mapArgs (f : Node → Node) (leadingDot : Bool) (calls : List Call) :
    bareRule leadingDot (calls.map (Call.mapArgs f)) =
      (bareRule leadingDot calls).map (Call.mapArgs f) := by
  have hsecond : ∀ c : Call, (c.mapArgs f).invokePrimitive = c.invokePrimitive.mapArgs f := by
    intro c
    cases c with
    | member name typeArgs =>
      rw [Call.mapArgs, Call.invokePrimitive]
      split_ifs <;> rfl
    | invoke name typeArgs args => rfl
  rcases calls with _ | ⟨head, _ | ⟨second, rest⟩⟩
  · rfl
  · rfl
  · simp only [List.map_cons, bareRule, isNamespace_mapArgs]
    split_ifs
    · simp only [List.map_cons, hsecond]
    · rfl

theorem modifierPart_mapArgs (f : Node → Node) (leadingDot : Bool) (calls : List Call) :
    modifierPart leadingDot (calls.map (Call.mapArgs f)) =
      (modifierPart leadingDot calls).map (Call.mapArgs f) := by
  unfold modifierPart
  rw [hasNamespaceHead_mapArgs]
  split_ifs
  · exact List.map_drop.symm
  · rfl

/-- Only the constructor is called. -/
theorem modifierPart_bareRule (leadingDot : Bool) (calls : List Call) :
    modifierPart leadingDot (bareRule leadingDot calls) = modifierPart leadingDot calls := by
  match calls with
  | [] => rfl
  | [_] => rfl
  | head :: second :: rest =>
    have hrule : bareRule leadingDot (head :: second :: rest) =
        if hasNamespaceHead leadingDot (head :: second :: rest) then
          head :: second.invokePrimitive :: rest
        else head :: second :: rest := rfl
    have hhead' : hasNamespaceHead leadingDot (head :: second.invokePrimitive :: rest) =
        hasNamespaceHead leadingDot (head :: second :: rest) := rfl
    rw [hrule]
    cases hhead : hasNamespaceHead leadingDot (head :: second :: rest) with
    | false => rfl
    | true =>
      rw [if_pos rfl, modifierPart, modifierPart, hhead', hhead]
      rfl

theorem isHoisted_bareRule {leadingDot : Bool} {calls : List Call}
    (h : IsHoisted leadingDot calls) :
    IsHoisted leadingDot
      (bareRule leadingDot (calls.map (Call.mapArgs (Node.apply bareRule)))) := by
  intro c hc
  rw [modifierPart_bareRule, modifierPart_mapArgs] at hc
  obtain ⟨old, hold, rfl⟩ := List.mem_map.mp hc
  rw [isWrapper_mapArgs_iff]
  exact h old hold

/-! ## Normalising again -/

theorem Node.Throughout.forget {onRaw : Text → Prop} {onChain : Bool → List Call → Prop} {n : Node}
    (h : n.Throughout onRaw onChain) : n.Throughout (fun _ => True) onChain :=
  h.imp (fun _ _ => trivial) fun _ _ h => h

namespace Node.IsSound

variable {n : Node} (h : n.IsSound)

include h

theorem normalise : (Expression.normalise n).IsSound :=
  Node.IsSound.apply rearranges_hoistRule (Node.IsSound.apply rearranges_bareRule h)

/-- Calling primitives leaves none to call. -/
theorem isCalled_apply : (n.apply bareRule).Throughout IsFormatted IsCalled :=
  h.throughout_apply rearranges_bareRule (fun _ _ _ _ => isCalled_bareRule _ _)
    (h.imp (fun _ _ => trivial) fun _ _ h => h)

/-- Calling primitives leaves nothing to hoist where there was nothing. -/
theorem isHoisted_apply (hhoisted : n.Throughout IsFormatted IsHoisted) :
    (n.apply bareRule).Throughout IsFormatted IsHoisted :=
  h.throughout_apply rearranges_bareRule (fun _ _ hold _ => isHoisted_bareRule hold)
    hhoisted.forget

/-- Normalising leaves nothing to hoist. -/
theorem isHoisted_normalise : (Expression.normalise n).Throughout IsFormatted IsHoisted := by
  have hbare := Node.IsSound.apply rearranges_bareRule h
  refine hbare.throughout_apply rearranges_hoistRule
    (fun _ _ _ hcalls => isHoisted_hoistRule _ fun c hc args hargs leadingDot calls hmem => ?_)
    (hbare.imp (fun _ _ => trivial) fun _ _ h => h)
  exact (hcalls c hc args hargs _ hmem).of_chain.1

/-- Where nothing is left to hoist, normalising calls the primitives. -/
theorem normalise_of_isHoisted (hhoisted : n.Throughout IsFormatted IsHoisted) :
    Expression.normalise n = n.apply bareRule :=
  Node.apply_eq_self ((h.isHoisted_apply hhoisted).imp (fun _ h => h)
    fun _ _ h => hoistRule_eq_self h)

/-- **The second time.** Normalising again calls the primitives and does nothing else. -/
theorem normalise_normalise :
    Expression.normalise (Expression.normalise n) = (Expression.normalise n).apply bareRule :=
  h.normalise.normalise_of_isHoisted h.isHoisted_normalise

/-- **The third time.** Normalising once more changes nothing. -/
theorem normalise_thrice :
    Expression.normalise (Expression.normalise (Expression.normalise n)) =
      Expression.normalise (Expression.normalise n) := by
  have hcalled := h.normalise.isCalled_apply
  have hhoisted := h.normalise.isHoisted_apply h.isHoisted_normalise
  rw [h.normalise_normalise,
    (Node.IsSound.apply rearranges_bareRule h.normalise).normalise_of_isHoisted hhoisted]
  exact Node.apply_eq_self hcalled

/-- Normalising again changes nothing if and only if no primitive is left to call. -/
theorem normalise_normalise_eq_iff :
    Expression.normalise (Expression.normalise n) = Expression.normalise n ↔
      (Expression.normalise n).Throughout (fun _ => True) IsCalled := by
  rw [h.normalise_normalise]
  constructor
  · intro heq
    rw [← heq]
    exact h.normalise.isCalled_apply.forget
  · intro hcalled
    exact Node.apply_eq_self ((h.isHoisted_normalise.and hcalled).imp (fun _ h => h.1)
      fun _ _ h => h.2)

end Node.IsSound

end Expression

end ModelSchemas

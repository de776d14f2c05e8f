import ModelSchemas.Proofs.Expression.Subtrees

/-!
# What the rewrites leave

Each of the two rewrites is done after one pass, at every depth of a tree, and it loses no call:
calling primitives turns a name into an invocation and changes nothing else, and hoisting moves the
calls of a wrapped chain directly in front of the call that wrapped them.
-/

namespace ModelSchemas

namespace Expression

/-! ## Calling primitives -/

theorem signatures_invokePrimitive (c : Call) : c.invokePrimitive.signatures = c.signatures := by
  cases c with
  | member name typeArgs =>
    rw [Call.invokePrimitive]
    split_ifs
    · simp [Call.signatures, nodeSignatures]
    · rfl
  | invoke name typeArgs args => rfl

theorem signatures_bareRule (leadingDot : Bool) (calls : List Call) :
    ((bareRule leadingDot calls).map Call.signatures).sum = (calls.map Call.signatures).sum := by
  rcases calls with _ | ⟨head, _ | ⟨second, rest⟩⟩
  · rfl
  · rfl
  · simp only [bareRule]
    split_ifs
    · simp [signatures_invokePrimitive]
    · rfl

/-- Behind the namespace of a chain whose primitives have been called, a primitive is invoked. -/
theorem IsCalled.isInvoked {leadingDot : Bool} {calls : List Call} (h : IsCalled leadingDot calls)
    (hhead : hasNamespaceHead leadingDot calls) {c : Call} (hc : calls[1]? = some c)
    (hname : c.name ∈ primitiveTypes) : c.isInvoked := by
  rcases calls with _ | ⟨head, _ | ⟨second, rest⟩⟩
  · cases hc
  · cases hc
  · cases hc
    have hsecond : c.invokePrimitive = c := by
      have hrule : bareRule leadingDot (head :: c :: rest) =
          head :: c.invokePrimitive :: rest := if_pos hhead
      have heq := hrule.symm.trans h
      simpa using heq
    cases c with
    | member name typeArgs =>
      have hprimitive : primitiveTypes.contains name := List.contains_iff_mem.mpr hname
      rw [Call.invokePrimitive, if_pos hprimitive] at hsecond
      cases hsecond
    | invoke name typeArgs args => rfl

/-- Takes the empty argument list of a primitive away. -/
def Call.revokePrimitive : Call → Call
  | .invoke name typeArgs [] =>
    if primitiveTypes.contains name then .member name typeArgs else .invoke name typeArgs []
  | call => call

/-- Takes the empty argument list away from a primitive that comes directly after the namespace
head. -/
def revokeRule : Rule := fun leadingDot calls =>
  match calls with
  | head :: second :: rest =>
    if !leadingDot && head.isNamespace then head :: second.revokePrimitive :: rest else calls
  | _ => calls

/-- All of a tree but its raw texts, and but the empty argument lists of the primitives that come
directly after the namespace. -/
def Node.uncalled (n : Node) : Node := n.transform (fun _ => []) revokeRule

theorem revokePrimitive_invokePrimitive (c : Call) :
    c.invokePrimitive.revokePrimitive = c.revokePrimitive := by
  cases c with
  | member name typeArgs =>
    rw [Call.invokePrimitive]
    split_ifs with hname
    · rw [Call.revokePrimitive, if_pos hname]
      rfl
    · rfl
  | invoke name typeArgs args => rfl

theorem revokeRule_bareRule (leadingDot : Bool) (calls : List Call) :
    revokeRule leadingDot (bareRule leadingDot calls) = revokeRule leadingDot calls := by
  rcases calls with _ | ⟨head, _ | ⟨second, rest⟩⟩
  · rfl
  · rfl
  · simp only [bareRule]
    split_ifs with hhead
    · simp only [revokeRule, hhead, if_true, revokePrimitive_invokePrimitive]
    · rfl

/-- Calling primitives changes raw texts, adds such argument lists, and does nothing else. -/
theorem uncalled_callBarePrimitives (n : Node) : (callBarePrimitives n).uncalled = n.uncalled := by
  unfold callBarePrimitives Node.uncalled
  induction n using Node.args_induction with
  | raw text => rw [apply_raw, Node.transform, Node.transform]
  | chain leadingDot calls ih =>
    have hcalls : (calls.map (Call.mapArgs (Node.apply bareRule))).map
        (Call.mapArgs (Node.transform (fun _ => []) revokeRule)) =
          calls.map (Call.mapArgs (Node.transform (fun _ => []) revokeRule)) := by
      rw [List.map_map]
      refine List.map_congr_left fun c hc => ?_
      rw [Function.comp_apply, Call.mapArgs_mapArgs]
      exact Call.mapArgs_congr (ih c hc)
    rw [apply_chain, transform_chain, transform_chain, ← bareRule_mapArgs, hcalls,
      revokeRule_bareRule]

/-! ## Hoisting wrappers -/

theorem signatures_unwrapArray (c : Call) :
    (c.unwrapArray.map Call.signatures).sum = c.signatures := by
  rcases c.unwrapArray_cases with ⟨typeArgs, inner, rfl, heq⟩ | heq
  · rw [heq, List.map_append, List.sum_append, Call.signatures, nodeSignatures_eq_sum,
      List.map_singleton, List.map_singleton, List.sum_singleton, List.sum_singleton,
      signatures_chain, Call.signatures, nodeSignatures, add_zero, add_comm]
  · rw [heq, List.map_singleton, List.sum_singleton]

theorem signatures_hoistRule (leadingDot : Bool) (calls : List Call) :
    ((hoistRule leadingDot calls).map Call.signatures).sum = (calls.map Call.signatures).sum := by
  have hunwrap : ∀ calls : List Call,
      ((calls.flatMap Call.unwrapArray).map Call.signatures).sum =
        (calls.map Call.signatures).sum := by
    intro calls
    induction calls with
    | nil => rfl
    | cons c rest ih =>
      rw [List.flatMap_cons, List.map_append, List.sum_append, ih, signatures_unwrapArray,
        List.map_cons, List.sum_cons]
  rw [hoistRule_eq, List.map_append, List.sum_append, hunwrap, ← List.sum_append,
    ← List.map_append, constructorPart_append_modifierPart]

/-- A wrapper in a hoisted chain is the constructor. -/
theorem IsHoisted.eq_one {leadingDot : Bool} {calls : List Call} (h : IsHoisted leadingDot calls)
    {i : Nat} {c : Call} (hc : calls[i]? = some c) (hwrapper : c.IsWrapper) :
    i = 1 ∧ hasNamespaceHead leadingDot calls := by
  unfold IsHoisted modifierPart at h
  cases hhead : hasNamespaceHead leadingDot calls with
  | false =>
    rw [hhead] at h
    exact absurd hwrapper (h c (List.mem_of_getElem? hc))
  | true =>
    rw [hhead, if_pos rfl] at h
    match i with
    | 0 =>
      -- the namespace itself is no wrapper
      cases calls with
      | nil => cases hc
      | cons head rest =>
        cases hc
        have hnamespace := (Bool.and_eq_true_iff.mp hhead).2
        rw [isNamespace_eq_false_of_isWrapper hwrapper] at hnamespace
        cases hnamespace
    | 1 => exact ⟨rfl, rfl⟩
    | i + 2 =>
      have hmem : c ∈ calls.drop 2 := by
        have hdrop : (calls.drop 2)[i]? = some c := by
          rw [List.getElem?_drop, Nat.add_comm]
          exact hc
        exact List.mem_of_getElem? hdrop
      exact absurd hwrapper (h c hmem)

/-- The calls of a tree, if it is a chain. -/
def Node.calls : Node → List Call
  | raw _ => []
  | chain _ calls => calls

/-- The calls of a chain, after hoisting. -/
def hoistedCalls (leadingDot : Bool) (calls : List Call) : List Call :=
  (hoistArrayModifier (.chain leadingDot calls)).calls

theorem hoistArrayModifier_chain (leadingDot : Bool) (calls : List Call) :
    hoistArrayModifier (.chain leadingDot calls) =
      .chain leadingDot (hoistedCalls leadingDot calls) := by
  rw [hoistedCalls, hoistArrayModifier, apply_chain, Node.calls]

theorem hoistedCalls_eq (leadingDot : Bool) (calls : List Call) :
    hoistedCalls leadingDot calls =
      hoistRule leadingDot (calls.map (Call.mapArgs hoistArrayModifier)) := by
  rw [hoistedCalls, hoistArrayModifier, apply_chain, Node.calls]
  rfl

/-- A wrapper that is not the constructor is spliced where it stands. -/
theorem hoistRule_append {leadingDot : Bool} {front : List Call} {wrapper : Call}
    (hwrapper : wrapper.IsWrapper)
    (hfront : ¬(front.length = 1 ∧ hasNamespaceHead leadingDot front)) (back : List Call) :
    hoistRule leadingDot (front ++ wrapper :: back) =
      hoistRule leadingDot front ++ (wrapper.unwrapArray ++ back.flatMap Call.unwrapArray) := by
  match front with
  | [] =>
    have hhead : hasNamespaceHead leadingDot (wrapper :: back) = false := by
      simp [hasNamespaceHead, isNamespace_eq_false_of_isWrapper hwrapper]
    rw [List.nil_append, hoistRule_of_no_head hhead, List.flatMap_cons]
    rfl
  | [c] =>
    have hhead : hasNamespaceHead leadingDot [c] = false := by simpa using hfront
    have hhead' : hasNamespaceHead leadingDot (c :: wrapper :: back) = false := hhead
    rw [List.singleton_append, hoistRule_of_no_head hhead', hoistRule_of_no_head hhead]
    simp
  | first :: second :: rest =>
    simp only [List.cons_append, hoistRule]
    split_ifs
    · simp
    · simp

/-- What a wrapper becomes stands between what becomes of the calls in front of it and of those
behind it: first all calls of the chain it wrapped, then the modifier. -/
theorem hoistedCalls_append {leadingDot : Bool} {front : List Call}
    (hfront : ¬(front.length = 1 ∧ hasNamespaceHead leadingDot front)) (typeArgs : Option Text)
    (inner back : List Call) :
    hoistedCalls leadingDot (front ++ .invoke arrayName typeArgs [.chain true inner] :: back) =
      hoistedCalls leadingDot front ++
        (hoistedCalls true inner ++ [.invoke arrayName typeArgs []]) ++ hoistedCalls true back := by
  have hinner : (Call.invoke arrayName typeArgs [.chain true inner]).mapArgs hoistArrayModifier =
      .invoke arrayName typeArgs [.chain true (hoistedCalls true inner)] := by
    rw [Call.mapArgs, List.map_singleton, hoistArrayModifier_chain]
  have hwrapper :
      (Call.invoke arrayName typeArgs [.chain true (hoistedCalls true inner)]).IsWrapper :=
    ⟨_, _, rfl⟩
  have hfront' : ¬((front.map (Call.mapArgs hoistArrayModifier)).length = 1 ∧
      hasNamespaceHead leadingDot (front.map (Call.mapArgs hoistArrayModifier))) := by
    rwa [List.length_map, hasNamespaceHead_mapArgs]
  rw [hoistedCalls_eq, List.map_append, List.map_cons, hinner, hoistRule_append hwrapper hfront',
    ← hoistedCalls_eq, Call.unwrapArray, if_pos rfl, hoistedCalls_eq true back,
    hoistRule_of_no_head (hasNamespaceHead_true _)]
  simp only [List.append_assoc]

/-- A call of a chain is kept, or it is a wrapper and what it wrapped moves out in one piece. -/
theorem mem_hoistRule_or (leadingDot : Bool) {calls : List Call} {c : Call} (hc : c ∈ calls) :
    c ∈ hoistRule leadingDot calls ∨
      ∃ typeArgs inner, c = .invoke arrayName typeArgs [.chain true inner] ∧
        inner <:+: hoistRule leadingDot calls := by
  rw [hoistRule_eq]
  rw [← constructorPart_append_modifierPart leadingDot calls] at hc
  rcases List.mem_append.mp hc with hc | hc
  · exact .inl (List.mem_append_left _ hc)
  · have hpart : c.unwrapArray <:+: constructorPart leadingDot calls ++
        (modifierPart leadingDot calls).flatMap Call.unwrapArray :=
      (List.infix_of_mem_flatten (List.mem_map_of_mem hc)).trans
        (List.suffix_append _ _).isInfix
    rcases c.unwrapArray_cases with ⟨typeArgs, inner, rfl, heq⟩ | heq
    · rw [heq] at hpart
      exact .inr ⟨typeArgs, inner, rfl, (List.prefix_append _ _).isInfix.trans hpart⟩
    · rw [heq] at hpart
      exact .inl (hpart.subset List.mem_cons_self)

/-- What a part of a tree becomes stands in one piece in what the tree becomes. -/
theorem exists_part_of_hoistedCalls {leadingDot : Bool} {calls : List Call} {n : Node}
    (h : (Node.chain leadingDot calls).IsPart n) :
    ∃ dot around, (Node.chain dot around).IsPart (hoistArrayModifier n) ∧
      hoistedCalls leadingDot calls <:+: around := by
  induction h with
  | self =>
    rw [hoistArrayModifier_chain]
    exact ⟨leadingDot, _, .self, List.infix_refl _⟩
  | @arg outerDot outer c args a hc hargs ha _ ih =>
    obtain ⟨dot, around, hpart, hinfix⟩ := ih
    have hmapped : (c.mapArgs hoistArrayModifier).HasPart (.chain dot around) :=
      hasPart_mapArgs.mpr ⟨args, hargs, a, ha, hpart⟩
    rw [hoistArrayModifier_chain, hoistedCalls_eq]
    have hmem : c.mapArgs hoistArrayModifier ∈ outer.map (Call.mapArgs hoistArrayModifier) :=
      List.mem_map_of_mem hc
    generalize outer.map (Call.mapArgs hoistArrayModifier) = mapped at hmem
    rcases mem_hoistRule_or outerDot hmem with hkept | ⟨typeArgs, inner, heq, hout⟩
    · exact ⟨dot, around, isPart_chain.mpr (.inr ⟨_, hkept, hmapped⟩), hinfix⟩
    · -- the argument moves out: its calls stand in the outer chain now
      rw [heq] at hmapped
      obtain ⟨_, hsingle, _, hmem', hpart'⟩ := hmapped
      cases hsingle
      cases List.mem_singleton.mp hmem'
      rcases isPart_chain.mp hpart' with heq' | ⟨call, hcall, hcallPart⟩
      · cases heq'
        exact ⟨outerDot, _, .self, hinfix.trans hout⟩
      · exact ⟨dot, around, isPart_chain.mpr (.inr ⟨call, hout.subset hcall, hcallPart⟩), hinfix⟩

/-! ## Both rewrites -/

/-- **Normal forms.** After hoisting, wrappers are left in the place of the constructor only, and
after calling primitives, a primitive directly behind the namespace is invoked, in all chains at
every depth. Neither loses a call or the dot in front of the tree, and calling primitives changes
nothing else. What is hoisted out of a wrapper, at any depth, stands directly in front of the
modifier that the wrapper becomes, between what becomes of its neighbours. -/
theorem rewrites_leave_normal_form (n : Node) :
    (∀ leadingDot calls, (Node.chain leadingDot calls).IsPart (hoistArrayModifier n) →
      ∀ i c, calls[i]? = some c → c.IsWrapper → i = 1 ∧ hasNamespaceHead leadingDot calls) ∧
    (∀ leadingDot calls, (Node.chain leadingDot calls).IsPart (callBarePrimitives n) →
      hasNamespaceHead leadingDot calls →
        ∀ c, calls[1]? = some c → c.name ∈ primitiveTypes → c.isInvoked) ∧
    (hoistArrayModifier n).signatures = n.signatures ∧
    (callBarePrimitives n).signatures = n.signatures ∧
    (hoistArrayModifier n).leadingDot? = n.leadingDot? ∧
    (callBarePrimitives n).leadingDot? = n.leadingDot? ∧
    (callBarePrimitives n).uncalled = n.uncalled ∧
    ∀ leadingDot front typeArgs inner back,
      (Node.chain leadingDot
        (front ++ .invoke arrayName typeArgs [.chain true inner] :: back)).IsPart n →
      ¬(front.length = 1 ∧ hasNamespaceHead leadingDot front) →
        ∃ dot around, (Node.chain dot around).IsPart (hoistArrayModifier n) ∧
          hoistedCalls leadingDot front ++
            (hoistedCalls true inner ++ [.invoke arrayName typeArgs []]) ++
              hoistedCalls true back <:+: around := by
  have hhoisted : ∀ leadingDot calls, (Node.chain leadingDot calls).IsPart (hoistArrayModifier n) →
      IsHoisted leadingDot calls := fun _ _ =>
    rearranges_hoistRule.of_isPart
      (fun leadingDot _ hcalls => isHoisted_hoistRule leadingDot hcalls) n
  have hcalled : ∀ leadingDot calls, (Node.chain leadingDot calls).IsPart (callBarePrimitives n) →
      IsCalled leadingDot calls := fun _ _ =>
    rearranges_bareRule.of_isPart (fun leadingDot calls _ => isCalled_bareRule leadingDot calls) n
  refine ⟨?_, ?_, signatures_apply signatures_hoistRule n, signatures_apply signatures_bareRule n,
    leadingDot?_apply hoistRule n, leadingDot?_apply bareRule n, uncalled_callBarePrimitives n, ?_⟩
  · intro leadingDot calls hpart i c hc hwrapper
    exact (hhoisted leadingDot calls hpart).eq_one hc hwrapper
  · intro leadingDot calls hpart hhead c hc hname
    exact (hcalled leadingDot calls hpart).isInvoked hhead hc hname
  · intro leadingDot front typeArgs inner back hpart hfront
    obtain ⟨dot, around, hpart', hinfix⟩ := exists_part_of_hoistedCalls hpart
    rw [hoistedCalls_append hfront] at hinfix
    exact ⟨dot, around, hpart', hinfix⟩

/-- The constructor around a chain that continues another, and a chain in an argument behind it. -/
def wrappedTree (inner : List Call) : Node :=
  .chain false [.member "z" none, .invoke "array" none [.chain true [.invoke "max" none []]],
    .invoke "or" none [.chain false inner]]

theorem isPart_wrappedTree (inner : List Call) :
    (Node.chain false inner).IsPart (wrappedTree inner) :=
  .arg (.tail _ (.tail _ (.head _))) rfl List.mem_cons_self .self

/-- Behind a bare primitive a wrapper is spliced, the primitive is invoked, and the constructor is
left as it is. -/
theorem wrapped_tree_rewritten :
    let tree := wrappedTree [.member "z" none, .member "string" none,
      .invoke "array" none [.chain true [.invoke "min" none []]]]
    hasNamespaceHead false (hoistArrayModifier tree).calls ∧
      (Call.invoke "string" none []).isInvoked ∧
      ∃ dot around, (Node.chain dot around).IsPart (hoistArrayModifier tree) ∧
        [.member "z" none, .member "string" none, .invoke "min" none [], .invoke "array" none []]
          <:+: around := by
  intro tree
  obtain ⟨hoisted, called, -, -, -, -, -, spliced⟩ := rewrites_leave_normal_form tree
  have hconstructor : (Call.invoke "array" none [.chain true [.invoke "max" none []]]).IsWrapper :=
    ⟨none, [.invoke "max" none []], rfl⟩
  have hcalled : callBarePrimitives tree = wrappedTree [.member "z" none,
      .invoke "string" none [], .invoke "array" none [.chain true [.invoke "min" none []]]] := rfl
  refine ⟨(hoisted false _ .self 1 _ rfl hconstructor).2,
    called false _ (hcalled ▸ isPart_wrappedTree _) rfl _ rfl (by decide), ?_⟩
  exact spliced false [.member "z" none, .member "string" none] none [.invoke "min" none []] []
    (isPart_wrappedTree _) (by simp)

end Expression

end ModelSchemas

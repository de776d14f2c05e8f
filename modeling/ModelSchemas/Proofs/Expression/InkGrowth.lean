import Mathlib.Algebra.BigOperators.Group.Multiset.Basic
import Mathlib.Tactic.Abel
import ModelSchemas.Proofs.Expression.Application
import ModelSchemas.Proofs.Expression.Ink

/-!
# Ink through normalisation

Normalising moves ink around and adds pairs of parentheses, and does nothing else to it: a bare
primitive gets its empty argument list, and a wrapped chain moves out of its wrapper, with the dot
in front of it. So the ink of the result, in any order, is that of the text and some such pairs.
-/

namespace ModelSchemas

namespace Expression

open Text

/-! ## Bags of ink -/

/-- The ink of a text in any order. -/
def bag (t : Text) : Multiset Char := (ink t : Multiset Char)

@[simp] theorem bag_nil : bag [] = 0 := rfl

@[simp] theorem bag_append (t u : Text) : bag (t ++ u) = bag t + bag u := by
  rw [bag, ink_append, ← Multiset.coe_add]
  rfl

theorem bag_congr {t u : Text} (h : ink t = ink u) : bag t = bag u := by rw [bag, bag, h]

@[simp] theorem bag_trim (t : Text) : bag (trim t) = bag t := bag_congr (ink_trim t)

/-- Joined by commas and blanks, texts have their ink together. -/
theorem bag_intercalate {between : Text} (h : ink between = []) (texts : List Text) :
    bag (List.intercalate between texts) = (texts.map bag).sum := by
  rw [bag, ink_intercalate_of_ink_eq_nil h]
  induction texts with
  | nil => rfl
  | cons first rest ih =>
    rw [List.flatMap_cons, ← Multiset.coe_add, ih, List.map_cons, List.sum_cons]
    rfl

/-- Joined by dots, texts bring one dot less than there are texts. -/
theorem bag_intercalate_dot {texts : List Text} (hne : texts ≠ []) :
    bag (List.intercalate ['.'] texts) + bag ['.'] =
      (texts.map fun t => bag t + bag ['.']).sum := by
  induction texts with
  | nil => exact absurd rfl hne
  | cons first rest ih =>
    cases rest with
    | nil => simp
    | cons next rest =>
      rw [List.intercalate_cons_cons, bag_append, bag_append, add_assoc, ih (List.cons_ne_nil _ _)]
      rfl

/-- An empty argument list. -/
def parentheses : Multiset Char := bag ['(', ')']

/-- The second bag is the first with empty argument lists. -/
def Gains (a b : Multiset Char) : Prop := ∃ k : ℕ, b = a + k • parentheses

namespace Gains

theorem refl (a : Multiset Char) : Gains a a := ⟨0, by simp⟩

theorem of_eq {a b : Multiset Char} (h : a = b) : Gains a b := h ▸ refl a

theorem trans {a b c : Multiset Char} (h : Gains a b) (h' : Gains b c) : Gains a c := by
  obtain ⟨k, rfl⟩ := h
  obtain ⟨l, rfl⟩ := h'
  exact ⟨k + l, by rw [add_nsmul, add_assoc]⟩

theorem add {a b c d : Multiset Char} (h : Gains a b) (h' : Gains c d) :
    Gains (a + c) (b + d) := by
  obtain ⟨k, rfl⟩ := h
  obtain ⟨l, rfl⟩ := h'
  exact ⟨k + l, by rw [add_nsmul, add_add_add_comm]⟩

theorem sum {α : Type} {f g : α → Multiset Char} {xs : List α}
    (h : ∀ x ∈ xs, Gains (f x) (g x)) : Gains (xs.map f).sum (xs.map g).sum := by
  induction xs with
  | nil => exact refl 0
  | cons x xs ih =>
    rw [List.map_cons, List.map_cons, List.sum_cons, List.sum_cons]
    exact (h x List.mem_cons_self).add (ih fun y hy => h y (List.mem_cons_of_mem x hy))

theorem of_add_right {a b c : Multiset Char} (h : Gains (a + c) (b + c)) : Gains a b := by
  obtain ⟨k, hk⟩ := h
  refine ⟨k, add_right_cancel (b := c) ?_⟩
  rw [hk]
  abel

end Gains

/-! ## Calls and chains -/

/-- The ink of a call and of the dot behind it. -/
def Call.weight (c : Call) : Multiset Char := bag c.render + bag ['.']

/-- The ink of the calls of a chain with a dot behind each. -/
def weight (calls : List Call) : Multiset Char := (calls.map Call.weight).sum

@[simp] theorem weight_nil : weight [] = 0 := rfl

@[simp] theorem weight_cons (c : Call) (calls : List Call) :
    weight (c :: calls) = c.weight + weight calls := by
  rw [weight, weight, List.map_cons, List.sum_cons]

theorem weight_append (calls more : List Call) :
    weight (calls ++ more) = weight calls + weight more := by
  rw [weight, List.map_append, List.sum_append]
  rfl

theorem weight_flatMap (calls : List Call) (f : Call → List Call) :
    weight (calls.flatMap f) = (calls.map fun c => weight (f c)).sum := by
  induction calls with
  | nil => rfl
  | cons c calls ih => rw [List.flatMap_cons, weight_append, ih, List.map_cons, List.sum_cons]

/-- The ink of a chain and of a dot behind it. -/
theorem bag_chain (leadingDot : Bool) {calls : List Call} (hne : calls ≠ []) :
    bag (Node.chain leadingDot calls).render + bag ['.'] =
      bag (if leadingDot then ['.'] else []) + weight calls := by
  have hne' : calls.map Call.render ≠ [] := by simpa using hne
  rw [Node.render, renderCalls_eq_map, bag_append, add_assoc, bag_intercalate_dot hne',
    List.map_map]
  rfl

/-- A chain with a leading dot has the ink of its calls with a dot each. -/
theorem bag_chain_true {calls : List Call} (hne : calls ≠ []) :
    bag (Node.chain true calls).render = weight calls := by
  have hchain := bag_chain true hne
  rw [if_pos rfl, add_comm (bag ['.'])] at hchain
  exact add_right_cancel hchain

theorem bag_invoke (name : Text) (typeArgs : Option Text) (args : List Node) :
    bag (Call.invoke name typeArgs args).render =
      bag (name ++ renderTypeArgs typeArgs) + parentheses +
        (args.map fun a => bag a.render).sum := by
  have hparens : bag ['('] + bag [')'] = parentheses := (bag_append ['('] [')']).symm
  have hargs := bag_intercalate ink_comma_blank (args.map Node.render)
  rw [List.map_map] at hargs
  rw [Call.render, renderNodes_eq_map]
  show bag (name ++ renderTypeArgs typeArgs ++
    (['('] ++ List.intercalate [',', ' '] (args.map Node.render)) ++ [')']) = _
  rw [bag_append, bag_append, bag_append ['('], hargs, ← hparens]
  simp only [Function.comp_def]
  abel

/-! ## Rules -/

/-- Every chain in the tree has calls. -/
def Node.HasCalls (n : Node) : Prop := n.Throughout (fun _ => True) fun _ calls => calls ≠ []

/-- Every chain in the arguments of the call has calls. -/
def Call.HasCalls (c : Call) : Prop := c.Throughout (fun _ => True) fun _ calls => calls ≠ []

theorem hasCalls_parse (t : Text) : (parse t).HasCalls :=
  throughout_parse (fun _ _ => trivial)
    (fun _ _ ho => by simpa using (isReading_of_outline ho).1) t

/-- A rule adds empty argument lists to the calls of a chain, and nothing else. -/
def Rule.AddsParentheses (rule : Rule) : Prop :=
  ∀ leadingDot calls, (∀ c ∈ calls, c.HasCalls) →
    Gains (weight calls) (weight (rule leadingDot calls))

theorem gains_invokePrimitive (c : Call) : Gains c.weight c.invokePrimitive.weight := by
  cases c with
  | member name typeArgs =>
    rw [Call.invokePrimitive]
    split_ifs
    · refine ⟨1, ?_⟩
      rw [Call.weight, Call.weight, bag_invoke, Call.render, one_nsmul, List.map_nil, List.sum_nil]
      abel
    · exact .refl _
  | invoke name typeArgs args => exact .refl _

theorem addsParentheses_bareRule : Rule.AddsParentheses bareRule := by
  intro leadingDot calls _
  unfold bareRule
  split
  · split_ifs
    · simp only [weight_cons]
      exact (Gains.refl _).add ((gains_invokePrimitive _).add (.refl _))
    · exact .refl _
  · exact .refl _

/-- A chain that moves out of its wrapper takes its leading dot along. -/
theorem weight_unwrapArray {c : Call} (h : c.HasCalls) : weight c.unwrapArray = c.weight := by
  rcases c.unwrapArray_cases with ⟨typeArgs, inner, rfl, heq⟩ | heq
  · have hne : inner ≠ [] := (h _ rfl _ List.mem_cons_self).of_chain.1
    rw [heq, weight_append, weight_cons, weight_nil, Call.weight, Call.weight, bag_invoke,
      bag_invoke, List.map_nil, List.sum_nil, List.map_singleton, List.sum_singleton,
      bag_chain_true hne]
    abel
  · rw [heq, weight_cons, weight_nil, add_zero]

theorem weight_flatMap_unwrapArray {calls : List Call} (h : ∀ c ∈ calls, c.HasCalls) :
    weight (calls.flatMap Call.unwrapArray) = weight calls := by
  rw [weight_flatMap, List.map_congr_left fun c hc => weight_unwrapArray (h c hc)]
  rfl

theorem addsParentheses_hoistRule : Rule.AddsParentheses hoistRule := by
  intro leadingDot calls h
  refine .of_eq ?_
  unfold hoistRule
  split
  · rename_i head second rest
    have hrest : ∀ c ∈ rest, c.HasCalls :=
      fun c hc => h c (List.mem_cons_of_mem head (List.mem_cons_of_mem second hc))
    split_ifs
    · simp only [weight_cons, weight_flatMap_unwrapArray hrest]
    · exact (weight_flatMap_unwrapArray h).symm
  · exact (weight_flatMap_unwrapArray h).symm

/-! ## Trees -/

/-- A literal gains what its values gain. -/
theorem gains_transformLiteral {onValue : Text → Text} {t : Text}
    (h : ∀ v ∈ literalValues t, Gains (bag v) (bag (onValue v))) :
    Gains (bag t) (bag (transformLiteral onValue t)) := by
  have hcomma : ink [','] = [] := by decide
  rcases isLiteral_or t with ⟨first, close, parts, hliteral⟩ | ⟨-, hsame⟩
  · have hparts : ∀ part ∈ parts, Gains (bag part) (bag (transformPart first onValue part)) := by
      intro part hpart
      rcases part_cases first (hliteral.isWhole part hpart) with
        hnone | ⟨before, behind, v, hslot, hv, rfl⟩
      · rw [hnone.transform]
        exact .refl _
      · have hvalue := h v (hliteral.mem_literalValues_iff.mpr ⟨_, hpart, hslot.value hv⟩)
        rw [hslot.transform hv]
        simp only [bag_append]
        exact (Gains.refl _).add (hvalue.add (.refl _))
    have hbag : ∀ texts : List Text,
        bag (first :: (List.intercalate [','] texts ++ [close])) =
          bag [first] + ((texts.map bag).sum + bag [close]) := by
      intro texts
      rw [← bag_intercalate hcomma, ← bag_append, ← bag_append]
      rfl
    rw [hliteral.transformLiteral_eq, hbag, List.map_map]
    conv_lhs => rw [hliteral.eq, hbag]
    exact (Gains.refl _).add ((Gains.sum hparts).add (.refl _))
  · rw [hsame]
    exact .refl _

/-- The calls of a chain gain what their arguments gain. -/
theorem gains_mapArgs {f : Node → Node} {c : Call}
    (h : ∀ args, c.args? = some args → ∀ a ∈ args, Gains (bag a.render) (bag (f a).render)) :
    Gains c.weight (c.mapArgs f).weight := by
  cases c with
  | member name typeArgs => exact .refl _
  | invoke name typeArgs args =>
    rw [Call.mapArgs, Call.weight, Call.weight, bag_invoke, bag_invoke, List.map_map]
    exact ((Gains.refl _).add (Gains.sum (h args rfl))).add (.refl _)

/-- Chains keep their calls under a rule that leaves some. -/
theorem Node.HasCalls.apply {n : Node} (h : n.HasCalls) {rule : Rule}
    (hrule : rule.Rearranges) : (n.apply rule).HasCalls := by
  induction h with
  | raw _ _ _ =>
    rw [apply_raw]
    exact .raw trivial fun v _ => hasCalls_parse v
  | chain hne _ ih =>
    rw [apply_chain]
    exact .chain (hrule.ne_nil (by simpa using hne)) (hrule.throughout (throughout_map_mapArgs ih))

/-- A tree gains what its chains do, those in its literals included. -/
theorem Node.HasCalls.gains_apply {n : Node} (h : n.HasCalls) {rule : Rule}
    (hrule : rule.Rearranges) (hadds : rule.AddsParentheses) :
    Gains (bag n.render) (bag (n.apply rule).render) := by
  induction h with
  | raw _ _ ih =>
    rw [apply_raw, Node.render, Node.render]
    refine gains_transformLiteral fun v hv => ?_
    rw [← bag_congr (ink_render_parse v)]
    exact ih v hv
  | chain hne hargs ih =>
    rename_i leadingDot calls
    rw [apply_chain]
    -- first the arguments, then the calls themselves
    have hinside : Gains (weight calls) (weight (calls.map (Call.mapArgs (Node.apply rule)))) := by
      rw [weight, weight, List.map_map]
      exact Gains.sum fun c hc => gains_mapArgs (ih c hc)
    have hcalls : Gains (weight (calls.map (Call.mapArgs (Node.apply rule))))
        (weight (rule leadingDot (calls.map (Call.mapArgs (Node.apply rule))))) := by
      refine hadds leadingDot _ (throughout_map_mapArgs fun c hc args hsome a ha => ?_)
      exact Node.HasCalls.apply (hargs c hc args hsome a ha) hrule
    refine Gains.of_add_right (c := bag ['.']) ?_
    rw [bag_chain leadingDot hne, bag_chain leadingDot (hrule.ne_nil (by simpa using hne))]
    exact (Gains.refl _).add (hinside.trans hcalls)

/-! ## Ink -/

/-- The ink of so many empty argument lists. -/
theorem coe_flatten_replicate (k : ℕ) :
    ((List.replicate k ['(', ')']).flatten : Multiset Char) = k • parentheses := by
  induction k with
  | zero => simp
  | succ k ih =>
    rw [List.replicate_succ, List.flatten_cons, ← Multiset.coe_add, ih, succ_nsmul, add_comm]
    rfl

/-- **Ink.** Reading and writing a text keeps its ink in order, and normalising it keeps its ink in
some order and adds empty argument lists only. -/
theorem ink_kept (t : Text) :
    ink (parse t).render = ink t ∧
      ∃ k, (ink (normaliseText t)).Perm (ink t ++ (List.replicate k ['(', ')']).flatten) := by
  refine ⟨ink_render_parse t, ?_⟩
  have hparse := hasCalls_parse t
  have hbare := hparse.gains_apply rearranges_bareRule addsParentheses_bareRule
  have hhoist := (hparse.apply rearranges_bareRule).gains_apply rearranges_hoistRule
    addsParentheses_hoistRule
  obtain ⟨k, hk⟩ := hbare.trans hhoist
  rw [bag_congr (ink_render_parse t)] at hk
  refine ⟨k, Multiset.coe_eq_coe.mp ?_⟩
  rw [← Multiset.coe_add, coe_flatten_replicate]
  exact hk

end Expression

end ModelSchemas

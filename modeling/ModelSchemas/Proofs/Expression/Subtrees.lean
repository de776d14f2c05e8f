import Mathlib.Algebra.BigOperators.Group.Multiset.Basic
import ModelSchemas.Proofs.Expression.NormalForm

/-!
# Parts of a tree

A tree is made of the chains that stand at any depth in the arguments of its calls. Raw text is a
leaf here: what it holds does not show in the tree. A rule of normalisation is applied to every
part, so what the rule makes of one chain can be found in what it makes of the tree.
-/

namespace ModelSchemas

namespace Expression

/-! ## Induction on arguments -/

/-- What passes from the arguments of a chain to the chain is true of every tree. -/
@[elab_as_elim]
theorem Node.args_induction {P : Node → Prop} (raw : ∀ text, P (.raw text))
    (chain : ∀ leadingDot calls,
      (∀ c ∈ calls, ∀ args, c.args? = some args → ∀ a ∈ args, P a) → P (.chain leadingDot calls))
    (n : Node) : P n := by
  refine @Node.rec P (fun c => ∀ args, c.args? = some args → ∀ a ∈ args, P a)
    (fun calls => ∀ c ∈ calls, ∀ args, c.args? = some args → ∀ a ∈ args, P a)
    (fun nodes => ∀ a ∈ nodes, P a) raw chain ?_ ?_ ?_ ?_ ?_ ?_ n
  · intro name typeArgs args hargs
    cases hargs
  · intro name typeArgs nodes ih args hargs
    cases hargs
    exact ih
  · simp
  · intro call rest hcall hrest
    exact List.forall_mem_cons.mpr ⟨hcall, hrest⟩
  · simp
  · intro node rest hnode hrest
    exact List.forall_mem_cons.mpr ⟨hnode, hrest⟩

/-! ## Parts -/

/-- The tree `part` is the whole tree or stands at some depth in the arguments of its calls. -/
inductive Node.IsPart (part : Node) : Node → Prop where
  | self : IsPart part part
  | arg {leadingDot : Bool} {calls : List Call} {c : Call} {args : List Node} {a : Node}
      (hc : c ∈ calls) (hargs : c.args? = some args) (ha : a ∈ args) (h : IsPart part a) :
      IsPart part (.chain leadingDot calls)

/-- The tree `part` stands at some depth in the arguments of the call. -/
def Call.HasPart (part : Node) (c : Call) : Prop :=
  ∃ args, c.args? = some args ∧ ∃ a ∈ args, part.IsPart a

section

variable {part : Node} {leadingDot : Bool} {calls : List Call}

theorem isPart_raw {text : Text} : part.IsPart (.raw text) ↔ part = .raw text := by
  constructor
  · intro h
    cases h
    rfl
  · rintro rfl
    exact .self

theorem isPart_chain :
    part.IsPart (.chain leadingDot calls) ↔
      part = .chain leadingDot calls ∨ ∃ c ∈ calls, c.HasPart part := by
  constructor
  · intro h
    cases h with
    | self => exact .inl rfl
    | arg hc hargs ha h => exact .inr ⟨_, hc, _, hargs, _, ha, h⟩
  · rintro (rfl | ⟨c, hc, args, hargs, a, ha, h⟩)
    · exact .self
    · exact .arg hc hargs ha h

/-- The parts of what a rule makes are parts of the arguments that it is given. -/
theorem Call.ComesFrom.hasPart {c : Call} (h : c.ComesFrom calls) (hc : c.HasPart part) :
    ∃ old ∈ calls, old.HasPart part := by
  cases h with
  | same hmem => exact ⟨c, hmem, hc⟩
  | wrapped hwrapper hmem =>
    exact ⟨_, hwrapper, _, rfl, _, List.mem_cons_self, isPart_chain.mpr (.inr ⟨c, hmem, hc⟩)⟩
  | emptied hmem =>
    obtain ⟨args, hargs, a, ha, -⟩ := hc
    cases hargs
    cases ha

theorem hasPart_mapArgs {f : Node → Node} {c : Call} :
    (c.mapArgs f).HasPart part ↔ ∃ args, c.args? = some args ∧ ∃ a ∈ args, part.IsPart (f a) := by
  constructor
  · rintro ⟨_, hnew, _, hmem, h⟩
    rw [Call.args?_mapArgs] at hnew
    obtain ⟨args, hargs, rfl⟩ := Option.map_eq_some_iff.mp hnew
    obtain ⟨a, ha, rfl⟩ := List.mem_map.mp hmem
    exact ⟨args, hargs, a, ha, h⟩
  · rintro ⟨args, hargs, a, ha, h⟩
    exact ⟨args.map f, by rw [Call.args?_mapArgs, hargs]; rfl, f a, List.mem_map_of_mem ha, h⟩

end

/-- **After a rule.** What a rule makes of a chain whose arguments have a property already, all
parts of the tree have after the rule. -/
theorem Rule.Rearranges.of_isPart {rule : Rule} (hrule : rule.Rearranges)
    {P : Bool → List Call → Prop}
    (hstep : ∀ leadingDot calls,
      (∀ c ∈ calls, ∀ args, c.args? = some args →
        ∀ dot inner, .chain dot inner ∈ args → P dot inner) →
          P leadingDot (rule leadingDot calls))
    (n : Node) {leadingDot : Bool} {calls : List Call}
    (h : (Node.chain leadingDot calls).IsPart (n.apply rule)) : P leadingDot calls := by
  induction n using Node.args_induction generalizing leadingDot calls with
  | raw text =>
    rw [apply_raw, isPart_raw] at h
    cases h
  | chain dot old ih =>
    rw [apply_chain, isPart_chain] at h
    rcases h with heq | ⟨c, hc, hpart⟩
    · cases heq
      refine hstep _ _ fun c hc args hargs dot inner hmem => ?_
      obtain ⟨c, hc', rfl⟩ := List.mem_map.mp hc
      obtain ⟨args', hargs', a, ha, heq⟩ :=
        hasPart_mapArgs.mp ⟨args, hargs, _, hmem, Node.IsPart.self⟩
      exact ih c hc' args' hargs' a ha heq
    · obtain ⟨_, hmem, hpart⟩ := (hrule.comesFrom hc).hasPart hpart
      obtain ⟨c, hc', rfl⟩ := List.mem_map.mp hmem
      obtain ⟨args, hargs, a, ha, h⟩ := hasPart_mapArgs.mp hpart
      exact ih c hc' args hargs a ha h

/-! ## What the calls say -/

mutual

/-- The names and generic arguments of all calls in a tree. -/
def Node.signatures : Node → Multiset (Text × Option Text)
  | .raw _ => 0
  | .chain _ calls => callSignatures calls

/-- Those of a call and of the calls in its arguments. -/
def Call.signatures : Call → Multiset (Text × Option Text)
  | .member name typeArgs => {(name, typeArgs)}
  | .invoke name typeArgs args => {(name, typeArgs)} + nodeSignatures args

/-- Those of several calls. -/
def callSignatures : List Call → Multiset (Text × Option Text)
  | [] => 0
  | call :: rest => call.signatures + callSignatures rest

/-- Those of several expressions. -/
def nodeSignatures : List Node → Multiset (Text × Option Text)
  | [] => 0
  | node :: rest => node.signatures + nodeSignatures rest

end

theorem callSignatures_eq_sum (calls : List Call) :
    callSignatures calls = (calls.map Call.signatures).sum := by
  induction calls with
  | nil => simp [callSignatures]
  | cons call rest ih => simp [callSignatures, ih]

theorem nodeSignatures_eq_sum (nodes : List Node) :
    nodeSignatures nodes = (nodes.map Node.signatures).sum := by
  induction nodes with
  | nil => simp [nodeSignatures]
  | cons node rest ih => simp [nodeSignatures, ih]

theorem signatures_chain (leadingDot : Bool) (calls : List Call) :
    (Node.chain leadingDot calls).signatures = (calls.map Call.signatures).sum := by
  rw [Node.signatures, callSignatures_eq_sum]

theorem signatures_mapArgs {f : Node → Node} {c : Call}
    (h : ∀ args, c.args? = some args → ∀ a ∈ args, (f a).signatures = a.signatures) :
    (c.mapArgs f).signatures = c.signatures := by
  cases c with
  | member name typeArgs => rfl
  | invoke name typeArgs args =>
    have hargs : (args.map f).map Node.signatures = args.map Node.signatures := by
      rw [List.map_map]
      exact List.map_congr_left (h args rfl)
    rw [Call.mapArgs, Call.signatures, Call.signatures, nodeSignatures_eq_sum,
      nodeSignatures_eq_sum, hargs]

/-- A rule that loses none of the calls of a chain loses none of a tree. -/
theorem signatures_apply {rule : Rule}
    (h : ∀ leadingDot calls,
      ((rule leadingDot calls).map Call.signatures).sum = (calls.map Call.signatures).sum)
    (n : Node) : (n.apply rule).signatures = n.signatures := by
  induction n using Node.args_induction with
  | raw text =>
    rw [apply_raw, Node.signatures, Node.signatures]
  | chain leadingDot calls ih =>
    have hcalls : (calls.map (Call.mapArgs (Node.apply rule))).map Call.signatures =
        calls.map Call.signatures := by
      rw [List.map_map]
      exact List.map_congr_left fun c hc => signatures_mapArgs (ih c hc)
    rw [apply_chain, signatures_chain, signatures_chain, h, hcalls]

/-- The flag for a dot in front, if the tree is a chain. -/
def Node.leadingDot? : Node → Option Bool
  | raw _ => none
  | chain leadingDot _ => some leadingDot

theorem leadingDot?_apply (rule : Rule) (n : Node) :
    (n.apply rule).leadingDot? = n.leadingDot? := by
  cases n with
  | raw text => rw [apply_raw, Node.leadingDot?, Node.leadingDot?]
  | chain leadingDot calls => rw [apply_chain, Node.leadingDot?, Node.leadingDot?]

end Expression

end ModelSchemas

import ModelSchemas.Proofs.Expression.NormalForm

/-!
# Normalising twice

Primitives are called before wrappers are hoisted, so hoisting may bring a primitive to the front of
a chain after its turn has come. Such a chain hides a primitive: it does not start with the
namespace, but what its wrappers wrap does. The texts without such chains are those that normalising
leaves as they are after the first time; all others are left after the second time.
-/

namespace ModelSchemas

namespace Expression

open Text

/-! ## Hidden primitives -/

mutual

/-- The calls that are left of a call when all wrappers in it are hoisted, the innermost first. -/
def Call.spliced : Call → List Call
  | .invoke name typeArgs [.chain true inner] =>
    if name = arrayName then splicedCalls inner ++ [.invoke name typeArgs []]
    else [.invoke name typeArgs [.chain true inner]]
  | call => [call]

/-- The calls that are left of several calls. -/
def splicedCalls : List Call → List Call
  | [] => []
  | call :: rest => call.spliced ++ splicedCalls rest

end

/-- The calls start with the namespace and a bare primitive. -/
def StartWithPrimitive (calls : List Call) : Prop :=
  ∃ head name typeArgs rest, calls = head :: .member name typeArgs :: rest ∧
    head.isNamespace ∧ name ∈ primitiveTypes

/-- The chain does not start with the namespace, but once its wrappers are hoisted it starts with
the namespace and a bare primitive. -/
def HidesPrimitive (leadingDot : Bool) (calls : List Call) : Prop :=
  leadingDot = false ∧ hasNamespaceHead leadingDot calls = false ∧
    StartWithPrimitive (splicedCalls calls)

/-- No chain of the text hides a primitive, at any depth and in no literal. -/
def HidesNoPrimitive (t : Text) : Prop :=
  (parse t).Throughout (fun _ => True) fun leadingDot calls => ¬HidesPrimitive leadingDot calls

/-! ## One step of normalising -/

theorem mapArgs_apply_apply (c : Call) :
    (c.mapArgs (Node.apply bareRule)).mapArgs (Node.apply hoistRule) = c.mapArgs normalise :=
  Call.mapArgs_mapArgs _ _ c

theorem normalise_chain (leadingDot : Bool) (calls : List Call) :
    normalise (.chain leadingDot calls) =
      .chain leadingDot
        (hoistRule leadingDot ((bareRule leadingDot calls).map (Call.mapArgs normalise))) := by
  rw [normalise, callBarePrimitives, hoistArrayModifier, apply_chain, apply_chain,
    bareRule_mapArgs, List.map_map]
  simp only [Function.comp_def, mapArgs_apply_apply]

theorem normalise_raw {text : Text} (hvalues : ∀ v ∈ literalValues text, (parse v).IsSound) :
    normalise (.raw text) = .raw (transformLiteral normaliseText text) := by
  have hbare : ∀ v ∈ literalValues text, ((parse v).apply bareRule).IsSound :=
    fun v hv => Node.IsSound.apply rearranges_bareRule (hvalues v hv)
  rw [normalise, callBarePrimitives, hoistArrayModifier, apply_raw, apply_raw,
    transformLiteral_transformLiteral fun v hv => (hbare v hv).isValue_render]
  refine congrArg Node.raw (transformLiteral_congr fun v hv => ?_)
  rw [Function.comp_apply, (hbare v hv).isRecoverable.parse_render]
  rfl

/-! ## What normalising brings to the front -/

theorem isWrapper_mapArgs_normalise_iff {c : Call} :
    (c.mapArgs normalise).IsWrapper ↔ c.IsWrapper := by
  rw [← mapArgs_apply_apply, isWrapper_mapArgs_iff, isWrapper_mapArgs_iff]

theorem bareRule_of_no_head {leadingDot : Bool} {calls : List Call}
    (h : hasNamespaceHead leadingDot calls = false) : bareRule leadingDot calls = calls := by
  rcases calls with _ | ⟨head, _ | ⟨second, rest⟩⟩
  · rfl
  · rfl
  · exact if_neg (Bool.eq_false_iff.mp h)

theorem spliced_of_not_isWrapper {c : Call} (h : ¬c.IsWrapper) : c.spliced = [c] := by
  unfold Call.spliced
  split
  · rename_i name typeArgs inner
    rw [if_neg]
    rintro rfl
    exact h ⟨typeArgs, inner, rfl⟩
  · rfl

theorem bareRule_true (calls : List Call) : bareRule true calls = calls :=
  bareRule_of_no_head (hasNamespaceHead_true calls)

/-- Hoisting out of normalised arguments splices the calls. -/
theorem flatMap_unwrapArray_mapArgs (calls : List Call) :
    (calls.map (Call.mapArgs normalise)).flatMap Call.unwrapArray =
      (splicedCalls calls).map (Call.mapArgs normalise) := by
  induction calls using splicedCalls.induct
    (fun c => (c.mapArgs normalise).unwrapArray = c.spliced.map (Call.mapArgs normalise)) with
  | case1 typeArgs inner ih =>
    have hspliced : (Call.invoke arrayName typeArgs [.chain true inner]).spliced =
        splicedCalls inner ++ [.invoke arrayName typeArgs []] := by
      rw [Call.spliced, if_pos rfl]
    rw [hspliced, Call.mapArgs, List.map_singleton, normalise_chain, bareRule_true,
      hoistRule_of_no_head (hasNamespaceHead_true _), ih, Call.unwrapArray, if_pos rfl,
      List.map_append]
    rfl
  | case2 name typeArgs inner hname =>
    have hwrapper : ¬(Call.invoke name typeArgs [.chain true inner]).IsWrapper := by
      rintro ⟨_, _, heq⟩
      cases heq
      exact hname rfl
    rw [spliced_of_not_isWrapper hwrapper,
      unwrapArray_of_not_isWrapper (isWrapper_mapArgs_normalise_iff.not.mpr hwrapper)]
    rfl
  | case3 call hother =>
    have hwrapper : ¬call.IsWrapper := by
      rintro ⟨typeArgs, inner, rfl⟩
      exact hother _ _ _ rfl
    rw [spliced_of_not_isWrapper hwrapper,
      unwrapArray_of_not_isWrapper (isWrapper_mapArgs_normalise_iff.not.mpr hwrapper)]
    rfl
  | case4 => rfl
  | case5 call rest ih ihRest =>
    rw [List.map_cons, List.flatMap_cons, ih, ihRest, splicedCalls, List.map_append]

/-! ### Called or hidden -/

theorem mapArgs_eq_member_iff {f : Node → Node} {c : Call} {name : Text} {typeArgs : Option Text} :
    c.mapArgs f = .member name typeArgs ↔ c = .member name typeArgs := by
  cases c with
  | member _ _ => rfl
  | invoke _ _ _ => exact ⟨nofun, nofun⟩

theorem invokePrimitive_eq_self_iff {c : Call} :
    c.invokePrimitive = c ↔ ∀ name typeArgs, c = .member name typeArgs → name ∉ primitiveTypes := by
  cases c with
  | member name typeArgs =>
    rw [Call.invokePrimitive]
    split_ifs with hname
    · constructor
      · intro heq
        cases heq
      · exact fun h => absurd (List.contains_iff_mem.mp hname) (h name typeArgs rfl)
    · refine ⟨fun _ _ _ heq => ?_, fun _ => rfl⟩
      cases heq
      exact fun hmem => hname (List.contains_iff_mem.mpr hmem)
  | invoke name typeArgs args => exact ⟨fun _ _ _ heq => (by cases heq), fun _ => rfl⟩

theorem isCalled_true (calls : List Call) : IsCalled true calls := bareRule_true calls

/-- No primitive is left to call if and only if none follows the namespace. -/
theorem isCalled_false_iff {calls : List Call} :
    IsCalled false calls ↔ ¬StartWithPrimitive calls := by
  rcases calls with _ | ⟨head, _ | ⟨second, rest⟩⟩
  · exact ⟨fun _ ⟨_, _, _, _, heq, _⟩ => (by cases heq), fun _ => rfl⟩
  · exact ⟨fun _ ⟨_, _, _, _, heq, _⟩ => (by cases heq), fun _ => rfl⟩
  · have hrule : bareRule false (head :: second :: rest) =
        if head.isNamespace then head :: second.invokePrimitive :: rest
        else head :: second :: rest := rfl
    rw [IsCalled, hrule]
    constructor
    · rintro hcalled ⟨_, name, typeArgs, _, heq, hhead, hname⟩
      cases heq
      rw [if_pos hhead] at hcalled
      have hsame := (List.cons.inj (List.cons.inj hcalled).2).1
      exact invokePrimitive_eq_self_iff.mp hsame name typeArgs rfl hname
    · intro hstart
      split_ifs with hhead
      · have hsame : second.invokePrimitive = second := by
          rw [invokePrimitive_eq_self_iff]
          rintro name typeArgs rfl hname
          exact hstart ⟨head, name, typeArgs, rest, rfl, hhead, hname⟩
        rw [hsame]
      · rfl

theorem startWithPrimitive_mapArgs_iff {f : Node → Node} {calls : List Call} :
    StartWithPrimitive (calls.map (Call.mapArgs f)) ↔ StartWithPrimitive calls := by
  constructor
  · rintro ⟨_, name, typeArgs, _, heq, hhead, hname⟩
    obtain ⟨head, more, rfl, rfl, hmore⟩ := List.map_eq_cons_iff.mp heq
    obtain ⟨second, rest, rfl, hsecond, -⟩ := List.map_eq_cons_iff.mp hmore
    rw [mapArgs_eq_member_iff] at hsecond
    rw [isNamespace_mapArgs] at hhead
    exact ⟨head, name, typeArgs, rest, by rw [hsecond], hhead, hname⟩
  · rintro ⟨head, name, typeArgs, rest, rfl, hhead, hname⟩
    exact ⟨head.mapArgs f, name, typeArgs, rest.map (Call.mapArgs f), rfl,
      (isNamespace_mapArgs f head).trans hhead, hname⟩

/-- A primitive that follows the namespace is called before the wrappers behind it are hoisted. -/
theorem isCalled_of_hasNamespaceHead {calls : List Call} (h : hasNamespaceHead false calls = true)
    (f : Node → Node) :
    IsCalled false (hoistRule false ((bareRule false calls).map (Call.mapArgs f))) := by
  rcases calls with _ | ⟨head, _ | ⟨second, rest⟩⟩
  · cases h
  · have hnew : hasNamespaceHead false [head.mapArgs f] = true := by
      rw [← h]
      exact hasNamespaceHead_mapArgs f false [head]
    show IsCalled false (hoistRule false [head.mapArgs f])
    rw [hoistRule_eq, constructorPart, modifierPart, hnew]
    rfl
  · have hhead : (head.mapArgs f).isNamespace = true := (isNamespace_mapArgs f head).trans h
    have hbare : bareRule false (head :: second :: rest) =
        head :: second.invokePrimitive :: rest := if_pos h
    have hhoist : hoistRule false ((head :: second.invokePrimitive :: rest).map (Call.mapArgs f)) =
        head.mapArgs f :: second.invokePrimitive.mapArgs f ::
          (rest.map (Call.mapArgs f)).flatMap Call.unwrapArray := if_pos hhead
    rw [hbare, hhoist, isCalled_false_iff]
    rintro ⟨_, name, typeArgs, _, heq, -, hname⟩
    have hsecond := (List.cons.inj (List.cons.inj heq).2).1
    rw [mapArgs_eq_member_iff] at hsecond
    exact invokePrimitive_eq_self_iff.mp (invokePrimitive_invokePrimitive second) name typeArgs
      hsecond hname

/-- Normalising the arguments and then the calls leaves a primitive to call if and only if the calls
hide one. -/
theorem isCalled_normalised_iff {leadingDot : Bool} {calls : List Call} :
    IsCalled leadingDot
        (hoistRule leadingDot ((bareRule leadingDot calls).map (Call.mapArgs normalise))) ↔
      ¬HidesPrimitive leadingDot calls := by
  cases leadingDot with
  | true => exact ⟨fun _ hhides => (by cases hhides.1), fun _ => isCalled_true _⟩
  | false =>
    cases hhead : hasNamespaceHead false calls with
    | true =>
      refine ⟨fun _ hhides => ?_, fun _ => isCalled_of_hasNamespaceHead hhead normalise⟩
      rw [HidesPrimitive, hhead] at hhides
      cases hhides.2.1
    | false =>
      have hnew := (hasNamespaceHead_mapArgs normalise false calls).trans hhead
      rw [bareRule_of_no_head hhead, hoistRule_of_no_head hnew, flatMap_unwrapArray_mapArgs,
        isCalled_false_iff, startWithPrimitive_mapArgs_iff, HidesPrimitive, hhead]
      simp

/-! ## Whole trees -/

section

variable {onRaw : Text → Prop} {onChain : Bool → List Call → Prop}

theorem throughout_mapArgs_iff {f : Node → Node} {c : Call} :
    (c.mapArgs f).Throughout onRaw onChain ↔
      ∀ args, c.args? = some args → ∀ a ∈ args, (f a).Throughout onRaw onChain := by
  refine ⟨fun h args hargs a ha => ?_, Call.throughout_mapArgs⟩
  refine h (args.map f) ?_ (f a) (List.mem_map_of_mem ha)
  rw [Call.args?_mapArgs, hargs]
  rfl

/-- Calling a primitive touches no argument. -/
theorem throughout_invokePrimitive {c : Call} (h : c.invokePrimitive.Throughout onRaw onChain) :
    c.Throughout onRaw onChain := by
  cases c with
  | member name typeArgs => exact fun _ hargs => by cases hargs
  | invoke name typeArgs args => exact h

theorem throughout_bareRule_iff {leadingDot : Bool} {calls : List Call} :
    (∀ c ∈ bareRule leadingDot calls, c.Throughout onRaw onChain) ↔
      ∀ c ∈ calls, c.Throughout onRaw onChain := by
  refine ⟨fun h c hc => ?_, rearranges_bareRule.throughout⟩
  unfold bareRule at h
  split at h
  · split_ifs at h
    · rcases List.mem_cons.mp hc with rfl | hc
      · exact h _ List.mem_cons_self
      · rcases List.mem_cons.mp hc with rfl | hc
        · exact throughout_invokePrimitive
            (h _ (List.mem_cons_of_mem _ List.mem_cons_self))
        · exact h _ (List.mem_cons_of_mem _ (List.mem_cons_of_mem _ hc))
    · exact h c hc
  · exact h c hc

/-- Hoisting removes no call but the chains that continue another. -/
theorem throughout_hoistRule_iff (htrue : ∀ calls, onChain true calls) {leadingDot : Bool}
    {calls : List Call} :
    (∀ c ∈ hoistRule leadingDot calls, c.Throughout onRaw onChain) ↔
      ∀ c ∈ calls, c.Throughout onRaw onChain := by
  refine ⟨fun h c hc => ?_, rearranges_hoistRule.throughout⟩
  rw [hoistRule_eq] at h
  rw [← constructorPart_append_modifierPart leadingDot calls] at hc
  rcases List.mem_append.mp hc with hc | hc
  · exact h c (List.mem_append_left _ hc)
  · have hparts : ∀ part ∈ c.unwrapArray, part.Throughout onRaw onChain := fun part hpart =>
      h part (List.mem_append_right _ (List.mem_flatMap.mpr ⟨c, hc, hpart⟩))
    rcases c.unwrapArray_cases with ⟨typeArgs, inner, rfl, heq⟩ | heq
    · intro args hargs a ha
      cases hargs
      cases List.mem_singleton.mp ha
      refine .chain (htrue inner) fun part hpart => hparts part ?_
      rw [heq]
      exact List.mem_append_left _ hpart
    · refine hparts c ?_
      rw [heq]
      exact List.mem_singleton_self c

end

/-- **Hidden primitives.** Normalising leaves a primitive to call if and only if one is hidden. -/
theorem isCalled_normalise_iff {n : Node} (h : n.IsSound) :
    (normalise n).Throughout (fun _ => True) IsCalled ↔
      n.Throughout (fun _ => True) fun leadingDot calls => ¬HidesPrimitive leadingDot calls := by
  unfold Node.IsSound at h
  induction h with
  | raw _ hvalues ih =>
    rename_i text _
    have hslots : ∀ v ∈ literalValues text, IsValue (normaliseText v) := fun v hv =>
      (Node.IsSound.normalise (hvalues v hv)).isValue_render
    have hread : ∀ v ∈ literalValues text, parse (normaliseText v) = normalise (parse v) :=
      fun v hv => (Node.IsSound.normalise (hvalues v hv)).isRecoverable.parse_render
    have hnew : (∀ v ∈ literalValues (transformLiteral normaliseText text),
          (parse v).Throughout (fun _ => True) IsCalled) ↔
        ∀ v ∈ literalValues text, (parse v).Throughout (fun _ => True)
          fun leadingDot calls => ¬HidesPrimitive leadingDot calls := by
      rw [literalValues_transformLiteral hslots, List.forall_mem_map]
      refine forall₂_congr fun v hv => ?_
      rw [hread v hv]
      exact ih v hv
    rw [normalise_raw hvalues]
    constructor
    · intro h
      exact .raw trivial (hnew.mp h.of_raw.2)
    · intro h
      exact .raw trivial (hnew.mpr h.of_raw.2)
  | chain _ _ ih =>
    rename_i leadingDot calls _ _
    have hargs : (∀ c ∈ hoistRule leadingDot
          ((bareRule leadingDot calls).map (Call.mapArgs normalise)),
          c.Throughout (fun _ => True) IsCalled) ↔
        ∀ c ∈ calls, c.Throughout (fun _ => True)
          fun leadingDot calls => ¬HidesPrimitive leadingDot calls := by
      rw [throughout_hoistRule_iff isCalled_true, ← bareRule_mapArgs, throughout_bareRule_iff,
        List.forall_mem_map]
      refine forall₂_congr fun c hc => throughout_mapArgs_iff.trans ?_
      exact forall₂_congr fun args hargs => forall₂_congr fun a ha => ih c hc args hargs a ha
    rw [normalise_chain]
    constructor
    · intro h
      exact .chain (isCalled_normalised_iff.mp h.of_chain.1) (hargs.mp h.of_chain.2)
    · intro h
      exact .chain (isCalled_normalised_iff.mpr h.of_chain.1) (hargs.mpr h.of_chain.2)

/-! ## Texts -/

/-- No rule changes inert text. -/
theorem IsInert.normaliseText_eq {t : Text} (h : IsInert t) : normaliseText t = trim t := by
  have happly : ∀ rule : Rule, (Node.raw (trim t)).apply rule = .raw (trim t) := fun rule => by
    rw [apply_raw, h.transform]
  rw [normaliseText, h.parse_eq, normalise, callBarePrimitives, hoistArrayModifier, happly, happly]
  rfl

theorem IsInert.normaliseText_trim {t : Text} (h : IsInert t) :
    normaliseText (trim t) = trim t := by
  have htrim : normaliseText (trim t) = normaliseText t := by
    rw [normaliseText, parse_trim]
    rfl
  rw [htrim, h.normaliseText_eq]

theorem IsInert.hidesNoPrimitive {t : Text} (h : IsInert t) : HidesNoPrimitive t := by
  rw [HidesNoPrimitive, h.parse_eq]
  refine .raw trivial fun v hv => ?_
  rw [h.values] at hv
  cases hv

theorem Node.IsSound.render_inj {n n' : Node} (h : n.IsSound) (h' : n'.IsSound) :
    n.render = n'.render ↔ n = n' := by
  refine ⟨fun heq => ?_, congrArg Node.render⟩
  rw [← h.isRecoverable.parse_render, heq, h'.isRecoverable.parse_render]

/-- **Normalising twice.** For a text whose generic arguments are delimited, normalising again
changes nothing if and only if no chain hides a primitive, and normalising for the third time never
changes anything. -/
theorem normaliseText_idempotent_iff {t : Text} (hgenerics : HasDelimitedGenerics t) :
    (normaliseText (normaliseText t) = normaliseText t ↔ HidesNoPrimitive t) ∧
      normaliseText (normaliseText (normaliseText t)) = normaliseText (normaliseText t) := by
  rcases isSound_or_isInert hgenerics with hsound | hinert
  · have hread : ∀ n : Node, n.IsSound → normaliseText n.render = (normalise n).render :=
      fun n hn => by rw [normaliseText, hn.isRecoverable.parse_render]
    have hfirst : normaliseText t = (normalise (parse t)).render := rfl
    have hnew := hsound.normalise
    rw [hfirst, hread _ hnew, hread _ hnew.normalise, hsound.normalise_thrice,
      hnew.normalise.render_inj hnew, hsound.normalise_normalise_eq_iff,
      isCalled_normalise_iff hsound]
    exact ⟨Iff.rfl, rfl⟩
  · rw [hinert.normaliseText_eq, hinert.normaliseText_trim, hinert.normaliseText_trim]
    exact ⟨⟨fun _ => hinert.hidesNoPrimitive, fun _ => rfl⟩, rfl⟩

/-- Nested generic arguments and a wrapper. -/
def nestedText : Text := "f<g<h>>.array(.min(1))"

theorem parse_nestedText :
    parse nestedText = .chain false [.member "f" (some "g<h>"),
      .invoke "array" none [.chain true [.invoke "min" none [.raw "1"]]]] := by
  have hwhole : outline nestedText =
      some ⟨false, [⟨"f", some "g<h>", none⟩, ⟨"array", none, some [".min(1)"]⟩]⟩ := by
    decide +kernel
  have hinner : outline ".min(1)" = some ⟨true, [⟨"min", none, some ["1"]⟩]⟩ := by decide +kernel
  have hraw : outline "1" = none := by decide +kernel
  have htrim : trim "1" = "1" := by decide +kernel
  rw [parse_of_outline_eq_some hwhole]
  simp only [List.map_cons, List.map_nil, CallOutline.toCall,
    parse_of_outline_eq_some hinner, parse_of_outline_eq_none hraw, htrim]

theorem hasDelimitedGenerics_nestedText : HasDelimitedGenerics nestedText := by
  have hdelimited : IsDelimited "g<h>" :=
    ⟨by decide +kernel, by decide +kernel, by decide +kernel⟩
  have hinner : (Node.chain true [.invoke "min" none [.raw "1"]]).Throughout (fun _ => True)
      fun _ calls => ∀ c ∈ calls, ∀ generic, c.typeArgs = some generic → IsDelimited generic := by
    refine .chain (fun c hc generic hgeneric => ?_) fun c hc args hargs a ha => ?_
    · cases List.mem_singleton.mp hc
      cases hgeneric
    · cases List.mem_singleton.mp hc
      cases hargs
      cases List.mem_singleton.mp ha
      exact .raw trivial nofun
  rw [HasDelimitedGenerics, parse_nestedText]
  refine .chain (fun c hc generic hgeneric => ?_) fun c hc args hargs a ha => ?_
  · rcases List.mem_pair.mp hc with rfl | rfl
    · cases hgeneric
      exact hdelimited
    · cases hgeneric
  · rcases List.mem_pair.mp hc with rfl | rfl
    · cases hargs
    · cases hargs
      cases List.mem_singleton.mp ha
      exact hinner

/-- The wrapper is hoisted at once, and nothing is left to do for the second time. -/
theorem nested_text_normalised_once :
    HasDelimitedGenerics nestedText ∧ HidesNoPrimitive nestedText ∧
      normaliseText nestedText = "f<g<h>>.min(1).array()" ∧
        normaliseText (normaliseText (normaliseText nestedText)) = normaliseText nestedText := by
  obtain ⟨htwice, hthrice⟩ := normaliseText_idempotent_iff hasDelimitedGenerics_nestedText
  have hfirst : normaliseText nestedText = "f<g<h>>.min(1).array()" := by decide +kernel
  have hsecond : normaliseText (normaliseText nestedText) = normaliseText nestedText := by
    rw [hfirst]
    decide +kernel
  exact ⟨hasDelimitedGenerics_nestedText, htwice.mp hsecond, hfirst, hthrice.trans hsecond⟩

/-- The namespace and a primitive in a wrapper come to the front after primitives were called. -/
theorem wrapped_primitive_called_late :
    normaliseText "array(.z.string)" = "z.string.array()" ∧
      normaliseText (normaliseText "array(.z.string)") = "z.string().array()" := by
  decide +kernel

-- Not all generic arguments are delimited: once the blank behind the equals sign is trimmed, the
-- bracket belongs to an arrow, and the next quotes are read differently.
example :
    normaliseText "f<a= >(\"> (\").g<b, <c>>('\"\\' ')" =
        "f<a=>(\"> (\").g<b, <c>>('\"\\' ')" ∧
      normaliseText "f<a=>(\"> (\").g<b, <c>>('\"\\' ')" =
        "f<a=>(\">(\").g<b, <c>>('\"\\' ')" := by
  decide +kernel

end Expression

end ModelSchemas

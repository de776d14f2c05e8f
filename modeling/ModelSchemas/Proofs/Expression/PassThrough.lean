import ModelSchemas.Expression.Override
import ModelSchemas.Proofs.Expression.Cutting
import ModelSchemas.Proofs.Expression.OverrideLine
import ModelSchemas.Proofs.Text.Ink

/-!
# Passing an argument through

A body may end with a call of `use`. The call is found by reading it; its argument is then cut out
from the first parenthesis on. This is the parenthesis of the argument list, unless one stands in
the generic arguments.
-/

namespace ModelSchemas

namespace Expression

open Text

/-! ## How the call is written -/

/-- The parts of a call that passes its argument through: what stands between the name and the
generic arguments, these with their brackets if there are any, what stands behind them, and the text
between the parentheses. -/
structure UseCall where
  before : Text
  generic : Text
  behind : Text
  argument : Text
deriving DecidableEq, Repr

namespace UseCall

/-- What stands behind the name. -/
def afterName (c : UseCall) : Text :=
  c.before ++ (c.generic ++ (c.behind ++ '(' :: (c.argument ++ [')'])))

def text (c : UseCall) : Text := passThroughName ++ c.afterName

/-- One list of generic arguments, or nothing. -/
def IsGeneric (t : Text) : Prop :=
  t = [] ∨ ∃ inside, t = '<' :: (inside ++ ['>']) ∧ matchingAngle t = some (inside.length + 1)

/-- Blanks stand around the generic arguments, and the call can be read. -/
structure IsReadable (c : UseCall) : Prop where
  before : allBlank c.before
  generic : IsGeneric c.generic
  behind : allBlank c.behind
  read : ∃ typeArgs args, parseCall c.text = some (.invoke passThroughName typeArgs args)

end UseCall

/-- The last segment of the body is this call, with blanks around it. -/
def EndsWithUse (body : Text) (c : UseCall) : Prop :=
  c.IsReadable ∧ ∃ segments last, splitTopLevel '.' body = some segments ∧
    segments.getLast? = some last ∧ trim last = c.text

/-! ## What a readable call looks like -/

/-- Where a text ends with ink, blanks are only in front of what is trimmed. -/
theorem exists_blanks_before_trim {front t : Text} (h : Text.HasInkAtEnds (front ++ t)) :
    ∃ blanks, allBlank blanks ∧ t = blanks ++ trim t := by
  obtain ⟨before, behind, hbefore, hbehind, heq⟩ := exists_eq_trim_between t
  suffices hnil : behind = [] by
    rw [hnil, List.append_nil] at heq
    exact ⟨before, hbefore, heq⟩
  by_contra hne
  -- the last blank would be the end of the text
  have hlast : (front ++ t).getLast? = some (behind.getLast hne) := by
    rw [heq, ← List.append_assoc, ← List.append_assoc, List.getLast?_append_of_ne_nil _ hne,
      List.getLast?_eq_some_getLast hne]
  have hink := h.2 _ hlast
  rw [List.all_eq_true.mp hbehind _ (List.getLast_mem hne)] at hink
  cases hink

/-- Whether an angle bracket closes does not depend on what stands behind. -/
theorem angleOffset_of_append {depth : Int} {previous : Option Char} {t rest : Text} {offset : Nat}
    (h : angleOffset depth previous (t ++ rest) = some offset) (hlt : offset < t.length) :
    angleOffset depth previous t = some offset := by
  induction t generalizing depth previous offset with
  | nil => cases hlt
  | cons c t ih =>
    have hbehind : ∀ {depth : Int},
        (angleOffset depth (some c) (t ++ rest)).map (· + 1) = some offset →
          (angleOffset depth (some c) t).map (· + 1) = some offset := by
      intro depth hmap
      obtain ⟨behind, hbehind, rfl⟩ := Option.map_eq_some_iff.mp hmap
      rw [ih hbehind (Nat.lt_of_succ_lt_succ hlt), Option.map_some]
    rw [List.cons_append, angleOffset] at h
    rw [angleOffset]
    split_ifs at h ⊢
    · exact hbehind h
    · exact h
    · exact hbehind h
    · exact hbehind h

/-- An argument list that is read stands between its parentheses. -/
theorem eq_of_readArguments {name rest argText : Text} {typeArgs typeArgs' : Option Text}
    (h : CallText.readArguments name typeArgs rest = some ⟨name, typeArgs', some argText⟩) :
    rest = '(' :: (argText ++ [')']) := by
  unfold CallText.readArguments at h
  split at h
  · cases h
  · rename_i inner
    split_ifs at h with hclose
    cases h
    rw [← eq_concat_of_matchingClose rfl hclose]
  · cases h

/-- What is read behind a name is generic arguments and an argument list, with blanks between. -/
theorem exists_parts_of_readAfterName {front name rest argText : Text} {typeArgs : Option Text}
    (hink : Text.HasInkAtEnds (front ++ rest))
    (h : CallText.readAfterName name rest = some ⟨name, typeArgs, some argText⟩) :
    ∃ generic behind, UseCall.IsGeneric generic ∧ allBlank behind ∧
      rest = generic ++ (behind ++ '(' :: (argText ++ [')'])) := by
  unfold CallText.readAfterName at h
  split at h
  · rename_i tail
    split at h
    · cases h
    · rename_i close hclose
      have hparts := eq_of_matchingAngle hclose
      have hrest := eq_of_readArguments h
      have hlength : close < ('<' :: tail).length := by
        obtain ⟨hlt, -⟩ := List.getElem?_eq_some_iff.mp (getElem?_of_angleOffset hclose)
        exact hlt
      have hinside : ((('<' :: tail).take close).drop 1).length + 1 = close := by
        have hpos : close ≠ 0 := by
          rintro rfl
          cases getElem?_of_angleOffset hclose
        rw [List.length_drop, List.length_take]
        omega
      generalize (('<' :: tail).take close).drop 1 = inside at hparts hinside
      generalize ('<' :: tail).drop (close + 1) = after at hparts hrest
      have htext : '<' :: tail = ('<' :: (inside ++ ['>'])) ++ after := by
        rw [hparts, List.cons_append, List.append_assoc]
        rfl
      rw [htext, ← List.append_assoc] at hink
      obtain ⟨behind, hbehind, hafter⟩ := exists_blanks_before_trim hink
      refine ⟨'<' :: (inside ++ ['>']), behind, .inr ⟨inside, rfl, ?_⟩, hbehind, ?_⟩
      · rw [matchingAngle, htext] at hclose
        rw [hinside]
        refine angleOffset_of_append hclose ?_
        rw [List.length_cons, List.length_append, List.length_singleton]
        omega
      · rw [htext, ← hrest, ← hafter]
  · exact ⟨[], [], .inl rfl, rfl, eq_of_readArguments h⟩

/-- A call with arguments has an argument list. -/
theorem exists_argText_of_read? {segment name : Text} {typeArgs : Option Text} {texts : List Text}
    (h : CallOutline.read? segment = some ⟨name, typeArgs, some texts⟩) :
    ∃ argText, CallText.read? segment = some ⟨name, typeArgs, some argText⟩ := by
  unfold CallOutline.read? at h
  split at h
  · cases h
  · cases h
  · rename_i argText hread
    obtain ⟨texts', -, heq⟩ := Option.map_eq_some_iff.mp h
    cases heq
    exact ⟨argText, hread⟩

theorem exists_texts_of_parseCall {segment name : Text} {typeArgs : Option Text} {args : List Node}
    (h : parseCall segment = some (.invoke name typeArgs args)) :
    ∃ texts, CallOutline.read? segment = some ⟨name, typeArgs, some texts⟩ := by
  obtain ⟨⟨name', typeArgs', args'⟩, hread, hcall⟩ := Option.map_eq_some_iff.mp h
  cases args' with
  | none => cases hcall
  | some texts =>
    cases hcall
    exact ⟨texts, hread⟩

theorem parseCall_of_read? {segment name : Text} {typeArgs : Option Text} {texts : List Text}
    (h : CallOutline.read? segment = some ⟨name, typeArgs, some texts⟩) :
    parseCall segment = some (.invoke name typeArgs (texts.map parse)) := by
  rw [parseCall, h]
  rfl

/-- A segment that is read as a call of `use` is written like one. -/
theorem exists_useCall_of_read? {segment : Text} {typeArgs : Option Text} {texts : List Text}
    (hink : segment.HasInkAtEnds)
    (h : CallOutline.read? segment = some ⟨passThroughName, typeArgs, some texts⟩) :
    ∃ c : UseCall, c.IsReadable ∧ segment = c.text := by
  obtain ⟨argText, hread⟩ := exists_argText_of_read? h
  obtain ⟨first, rest, rfl⟩ : ∃ first rest, segment = first :: rest := by
    cases segment with
    | nil => cases hread
    | cons first rest => exact ⟨first, rest, rfl⟩
  rw [CallText.read?] at hread
  split_ifs at hread with hstart
  have hname : passThroughName = first :: rest.takeWhile continuesName :=
    (CallText.readAfterName_eq_some hread).1
  have hsegment : first :: rest = passThroughName ++ rest.dropWhile continuesName := by
    rw [hname, List.cons_append, List.takeWhile_append_dropWhile]
  rw [← hname] at hread
  generalize rest.dropWhile continuesName = after at hread hsegment
  rw [hsegment] at hink h ⊢
  obtain ⟨before, hbefore, hafter⟩ := exists_blanks_before_trim hink
  rw [hafter, ← List.append_assoc] at hink
  obtain ⟨generic, behind, hgeneric, hbehind, hparts⟩ := exists_parts_of_readAfterName hink hread
  have htext : passThroughName ++ after = (UseCall.mk before generic behind argText).text := by
    rw [UseCall.text, UseCall.afterName, ← hparts, ← hafter]
  have hargs := parseCall_of_read? h
  rw [htext] at hargs
  exact ⟨_, ⟨hbefore, hgeneric, hbehind, _, _, hargs⟩, htext⟩

theorem head?_blanks_append {blanks t : Text} (hblanks : allBlank blanks)
    (ht : ∀ c, t.head? = some c → continuesName c = false) :
    ∀ c, (blanks ++ t).head? = some c → continuesName c = false := by
  cases blanks with
  | nil => exact ht
  | cons blank blanks =>
    intro c hc
    cases hc
    exact continuesName_of_isBlank (List.all_eq_true.mp hblanks blank List.mem_cons_self)

namespace UseCall

/-- What stands behind the generic arguments. -/
def argumentPart (c : UseCall) : Text := c.behind ++ '(' :: (c.argument ++ [')'])

variable {c : UseCall} (h : c.IsReadable)

include h

theorem IsReadable.trim_argumentPart : trim c.argumentPart = '(' :: (c.argument ++ [')']) := by
  have hink : Text.HasInkAtEnds ('(' :: c.argument ++ [')']) :=
    hasInkAtEnds_enclosed (by decide) (by decide) c.argument
  rw [argumentPart, trim_append_of_allBlank h.behind]
  exact hink.trim_eq_self

/-- What is read behind the name ends with the argument. -/
theorem IsReadable.argument_eq {name argText : Text} {typeArgs : Option Text}
    (hread : CallText.readAfterName name (trim c.afterName) =
      some ⟨name, typeArgs, some argText⟩) : argText = c.argument := by
  have hargs : ∀ {typeArgs' : Option Text}, CallText.readArguments name typeArgs'
      (trim c.argumentPart) = some ⟨name, typeArgs, some argText⟩ → argText = c.argument := by
    intro typeArgs' hread
    have heq := eq_of_readArguments hread
    rw [h.trim_argumentPart] at heq
    exact (List.append_cancel_right (List.cons.inj heq).2).symm
  rw [afterName, trim_append_of_allBlank h.before, ← argumentPart] at hread
  rcases h.generic with hnil | ⟨inside, hgeneric, hclose⟩
  · rw [hnil, List.nil_append] at hread
    have hlist : CallText.readArguments name none (trim c.argumentPart) =
        some ⟨name, typeArgs, some argText⟩ := by
      rw [h.trim_argumentPart] at hread ⊢
      exact hread
    exact hargs hlist
  · have hink : Text.HasInkAtEnds (c.generic ++ c.argumentPart) := by
      have henclosed := hasInkAtEnds_enclosed (a := '<') (b := ')') (by decide) (by decide)
        (inside ++ ['>'] ++ (c.behind ++ '(' :: c.argument))
      simpa [hgeneric, argumentPart] using henclosed
    have hclose' : matchingAngle (c.generic ++ c.argumentPart) = some (inside.length + 1) :=
      angleOffset_append hclose c.argumentPart
    have hdrop : (c.generic ++ c.argumentPart).drop (inside.length + 1 + 1) = c.argumentPart := by
      have hlength : c.generic.length = inside.length + 1 + 1 := by simp [hgeneric]
      rw [← hlength, List.drop_left]
    rw [hink.trim_eq_self] at hread
    rw [hgeneric, List.cons_append] at hread hclose' hdrop
    rw [CallText.readAfterName] at hread
    simp only [hclose', hdrop] at hread
    exact hargs hread

/-- **Reading it back.** The argument of a readable call is the text that is read. -/
theorem IsReadable.read?_eq :
    ∃ typeArgs, CallText.read? c.text = some ⟨passThroughName, typeArgs, some c.argument⟩ := by
  obtain ⟨typeArgs, args, hparse⟩ := h.read
  obtain ⟨texts, houtline⟩ := exists_texts_of_parseCall hparse
  obtain ⟨argText, hread⟩ := exists_argText_of_read? houtline
  have hname : ∀ c ∈ ("se" : Text), continuesName c := List.all_eq_true.mp (by decide)
  have hafter : ∀ d, c.afterName.head? = some d → continuesName d = false := by
    refine head?_blanks_append h.before ?_
    have hparenthesis : ∀ d, ('(' :: (c.argument ++ [')'])).head? = some d →
        continuesName d = false := by
      rintro d ⟨⟩
      decide
    rcases h.generic with hnil | ⟨inside, hgeneric, -⟩
    · rw [hnil, List.nil_append]
      exact head?_blanks_append h.behind hparenthesis
    · rw [hgeneric]
      rintro d ⟨⟩
      decide
  obtain ⟨htake, hdrop⟩ := span_append hname hafter
  have hbehind : CallText.readAfterName passThroughName (trim c.afterName) =
      some ⟨passThroughName, typeArgs, some argText⟩ := by
    have hstart : startsName 'u' = true := by decide
    have htext : c.text = 'u' :: ("se" ++ c.afterName) := rfl
    rw [htext, CallText.read?, if_pos hstart, htake, hdrop] at hread
    exact hread
  exact ⟨typeArgs, h.argument_eq hbehind ▸ hread⟩

end UseCall

/-- A body ends with one call, whose argument is determined by the body. -/
theorem EndsWithUse.argument_eq {body : Text} {c c' : UseCall} (h : EndsWithUse body c)
    (h' : EndsWithUse body c') : c.argument = c'.argument := by
  obtain ⟨hc, segments, last, hsplit, hlast, htrim⟩ := h
  obtain ⟨hc', segments', last', hsplit', hlast', htrim'⟩ := h'
  cases hsplit.symm.trans hsplit'
  cases hlast.symm.trans hlast'
  obtain ⟨typeArgs, hread⟩ := hc.read?_eq
  obtain ⟨typeArgs', hread'⟩ := hc'.read?_eq
  rw [← htrim] at hread
  rw [← htrim', hread] at hread'
  exact Option.some.inj (congrArg CallText.argText (Option.some.inj hread'))

/-! ## What is cut out -/

/-- What is found behind the first parenthesis, up to the last character. -/
theorem parenthesisedText_append {front t : Text} (h : '(' ∉ front) (close : Char) :
    parenthesisedText (front ++ '(' :: (t ++ [close])) = trim t := by
  have hfront : ∀ c ∈ front, decide (c ≠ '(') = true := by
    intro c hc
    rw [decide_eq_true_eq]
    rintro rfl
    exact h hc
  rw [parenthesisedText, List.dropWhile_append_of_pos hfront,
    List.dropWhile_cons_of_neg (by decide), List.drop_succ_cons, List.drop_zero,
    List.dropLast_concat]

theorem not_mem_of_allBlank {t : Text} (h : allBlank t) : '(' ∉ t := by
  intro hmem
  exact absurd (List.all_eq_true.mp h _ hmem) (by decide)

/-- A body that ends with the call gives what is cut out of the call. -/
theorem EndsWithUse.useArgument_eq {body : Text} {c : UseCall} (h : EndsWithUse body c) :
    useArgument body = nonBlank? (parenthesisedText c.text) := by
  obtain ⟨hc, segments, last, hsplit, hlast, htrim⟩ := h
  obtain ⟨typeArgs, args, hparse⟩ := hc.read
  obtain ⟨texts, hread⟩ := exists_texts_of_parseCall hparse
  rw [useArgument, hsplit, Option.bind_some, hlast]
  dsimp only
  have hcut : trim (parenthesisedText c.text) = parenthesisedText c.text := trim_trim _
  rw [htrim, hread, nonBlank?, hcut]
  exact if_pos rfl

/-- A body gives an argument only if it ends with the call. -/
theorem endsWithUse_of_useArgument {body argument : Text} (h : useArgument body = some argument) :
    ∃ c, EndsWithUse body c := by
  unfold useArgument at h
  split at h
  · cases h
  · rename_i last hlast
    obtain ⟨segments, hsplit, hlast⟩ := Option.bind_eq_some_iff.mp hlast
    dsimp only at h
    split at h
    · rename_i name typeArgs texts hread
      split_ifs at h with hname
      subst hname
      obtain ⟨c, hc, htext⟩ := exists_useCall_of_read? (hasInkAtEnds_trim last) hread
      exact ⟨c, hc, segments, last, hsplit, hlast, htext⟩
    · cases h

/-- A text is longer than a part of it that lacks some of its ink. -/
theorem trim_ne_of_ink {front t : Text} (h : ink front ≠ []) : trim (front ++ t) ≠ trim t := by
  intro heq
  have hink : ink (front ++ t) = ink t := by rw [← ink_trim, heq, ink_trim]
  rw [ink_append] at hink
  exact h (List.append_left_eq_self.mp hink)

theorem not_mem_name_append_before {c : UseCall} (h : c.IsReadable) :
    '(' ∉ passThroughName ++ c.before :=
  List.not_mem_append (by decide) (not_mem_of_allBlank h.before)

/-- Where the first parenthesis is that of the argument list, the argument is given. -/
theorem EndsWithUse.useArgument_eq_nonBlank? {body : Text} {c : UseCall} (h : EndsWithUse body c)
    (hgeneric : '(' ∉ c.generic) : useArgument body = nonBlank? c.argument := by
  have hfront := List.not_mem_append (List.not_mem_append (not_mem_name_append_before h.1) hgeneric)
    (not_mem_of_allBlank h.1.behind)
  have htext : c.text = (passThroughName ++ c.before ++ c.generic ++ c.behind) ++
      '(' :: (c.argument ++ [')']) := by
    simp only [UseCall.text, UseCall.afterName, List.append_assoc]
  rw [h.useArgument_eq, htext, parenthesisedText_append hfront, nonBlank?_trim]

/-- Where it is in the generic arguments, the rest of these is given as well. -/
theorem EndsWithUse.useArgument_eq_of_generic {body : Text} {c : UseCall} (h : EndsWithUse body c)
    {inside outside : Text} (hgeneric : c.generic = inside ++ '(' :: outside)
    (hinside : '(' ∉ inside) :
    useArgument body = some (trim (outside ++ (c.behind ++ '(' :: c.argument))) := by
  have hfront := List.not_mem_append (not_mem_name_append_before h.1) hinside
  have htext : c.text = (passThroughName ++ c.before ++ inside) ++
      '(' :: ((outside ++ (c.behind ++ '(' :: c.argument)) ++ [')']) := by
    simp only [UseCall.text, UseCall.afterName, hgeneric, List.append_assoc, List.cons_append]
  rw [h.useArgument_eq, htext, parenthesisedText_append hfront, nonBlank?_trim]
  refine nonBlank?_eq_some_iff.mpr ⟨rfl, fun hnil => ?_⟩
  exact absurd (by simp) (not_mem_of_allBlank (trim_eq_nil_iff.mp hnil))

/-- **Passing through.** Only a body that ends with a call of `use` gives an argument. It gives the
text between the parentheses of the call exactly if no parenthesis stands in the generic arguments;
otherwise what it gives starts behind the first parenthesis of these. -/
theorem useArgument_spec (body : Text) :
    (useArgument body ≠ none → ∃ c, EndsWithUse body c) ∧
    ∀ c, EndsWithUse body c →
      (useArgument body = nonBlank? c.argument ↔ '(' ∉ c.generic) ∧
      ∀ inside outside, c.generic = inside ++ '(' :: outside → '(' ∉ inside →
        useArgument body = some (trim (outside ++ (c.behind ++ '(' :: c.argument))) := by
  constructor
  · intro h
    obtain ⟨argument, hargument⟩ := Option.ne_none_iff_exists'.mp h
    exact endsWithUse_of_useArgument hargument
  intro c h
  refine ⟨⟨fun heq hmem => ?_, h.useArgument_eq_nonBlank?⟩,
    fun _ _ => h.useArgument_eq_of_generic⟩
  -- behind the first parenthesis of the generic arguments there is more ink than in the argument
  obtain ⟨inside, outside, hgeneric, hinside⟩ := List.eq_append_cons_of_mem hmem
  rw [h.useArgument_eq_of_generic hgeneric hinside] at heq
  have htrim := (nonBlank?_eq_some_iff.mp heq.symm).1
  have hink : ink (outside ++ (c.behind ++ ['('])) ≠ [] := by
    have hmark : ink ['('] = ['('] := by decide
    simp [hmark]
  refine trim_ne_of_ink hink (t := c.argument) ?_
  rw [htrim, List.append_assoc, List.append_assoc, List.singleton_append]

/-- A body whose last segment has generic arguments and a bracket in its argument. -/
def passingBody : Text := "string().use < A > (pick(B) )"

/-- A call with a function type among its generic arguments. -/
def functionCall : UseCall := ⟨[], "<(a) => b>", [], "X"⟩

theorem endsWithUse_passingBody :
    EndsWithUse passingBody ⟨" ", "< A >", " ", "pick(B) "⟩ := by
  have hread : CallOutline.read? "use < A > (pick(B) )" =
      some ⟨"use", some "A", some ["pick(B) "]⟩ := by decide +kernel
  exact ⟨⟨by decide, .inr ⟨" A ", by decide, by decide⟩, by decide, _, _, parseCall_of_read? hread⟩,
    ["string()", "use < A > (pick(B) )"], "use < A > (pick(B) )", by decide +kernel, rfl,
    by decide⟩

theorem endsWithUse_functionCall : EndsWithUse functionCall.text functionCall := by
  have hread : CallOutline.read? functionCall.text =
      some ⟨"use", some "(a) => b", some ["X"]⟩ := by decide +kernel
  exact ⟨⟨rfl, .inr ⟨"(a) => b", by decide, by decide⟩, rfl, _, _, parseCall_of_read? hread⟩,
    [functionCall.text], functionCall.text, by decide +kernel, rfl, by decide⟩

/-- The argument is given without blanks at its ends, brackets and all. -/
theorem passing_body_gives_argument :
    EndsWithUse passingBody ⟨" ", "< A >", " ", "pick(B) "⟩ ∧
      useArgument passingBody = some "pick(B)" := by
  obtain ⟨hgiven, -⟩ := (useArgument_spec passingBody).2 _ endsWithUse_passingBody
  refine ⟨endsWithUse_passingBody, ?_⟩
  rw [hgiven.mpr (by decide)]
  decide

/-- The parenthesis of a function type is taken for that of the argument list. -/
theorem function_type_cuts :
    EndsWithUse functionCall.text functionCall ∧
      nonBlank? functionCall.argument = some "X" ∧
      useArgument functionCall.text = some "a) => b>(X" :=
  ⟨endsWithUse_functionCall, by decide, by decide +kernel⟩

end Expression

end ModelSchemas

import ModelSchemas.Proofs.Expression.Balance

/-!
# Well-nested text

A grammar says which texts are in order by themselves: plain characters, quoted pieces, and brackets
around such texts, one after another. A reader that steps over a text is back outside exactly if the
grammar derives it. So the search for a closing bracket finds the one place behind which the grammar
leaves nothing open, and finds nothing exactly if there is no such place.
-/

namespace ModelSchemas

namespace Expression

/-! ## The grammar -/

/-- What may stand between two marks: a backslash with the character after it, whatever that is, or
any character other than the mark and the backslash. -/
inductive QuotedBody (mark : Char) : Text → Prop where
  | nil : QuotedBody mark []
  | escape (c : Char) {rest : Text} (hrest : QuotedBody mark rest) :
      QuotedBody mark ('\\' :: c :: rest)
  | other {c : Char} {rest : Text} (hmark : c ≠ mark) (hback : c ≠ '\\')
      (hrest : QuotedBody mark rest) : QuotedBody mark (c :: rest)

/-- Texts made of plain characters, quoted pieces, and well-nested texts in brackets. -/
inductive WellNested : Text → Prop where
  | nil : WellNested []
  | plain {c : Char} {rest : Text} (h : isPlain c) (hrest : WellNested rest) :
      WellNested (c :: rest)
  | quoted {mark : Char} {body rest : Text} (hmark : isQuoteMark mark)
      (hbody : QuotedBody mark body) (hrest : WellNested rest) :
      WellNested (mark :: (body ++ mark :: rest))
  | bracketed {first close : Char} {inner rest : Text} (h : closerOf first = some close)
      (hinner : WellNested inner) (hrest : WellNested rest) :
      WellNested (first :: (inner ++ close :: rest))

/-! ## Quoted pieces -/

theorem ne_backslash_of_isQuoteMark {mark : Char} (h : isQuoteMark mark) : mark ≠ '\\' := by
  rintro rfl
  cases h

theorem step_openingMark {mark : Char} (h : isQuoteMark mark) :
    Nesting.outside.step mark = some ⟨.quoted mark, []⟩ := by
  simp [Nesting.step, Nesting.outside, h]

theorem step_closingMark {mark : Char} (h : mark ≠ '\\') (owed : List Char) :
    (⟨.quoted mark, owed⟩ : Nesting).step mark = some ⟨.code, owed⟩ := by
  simp [Nesting.step, h]

theorem step_quotedOther {mark c : Char} (hmark : c ≠ mark) (hback : c ≠ '\\')
    (owed : List Char) :
    (⟨.quoted mark, owed⟩ : Nesting).step c = some ⟨.quoted mark, owed⟩ := by
  simp [Nesting.step, hmark, hback]

/-- A reader leaves a quoted piece behind its body. -/
theorem QuotedBody.run_eq {mark : Char} (hmark : isQuoteMark mark) {body : Text}
    (h : QuotedBody mark body) (owed : List Char) (rest : Text) :
    (⟨.quoted mark, owed⟩ : Nesting).run (body ++ mark :: rest) =
      (⟨.code, owed⟩ : Nesting).run rest := by
  induction h with
  | nil =>
    have hstep := step_closingMark (ne_backslash_of_isQuoteMark hmark) owed
    exact Nesting.run_cons_of_step hstep rest
  | escape c _ ih =>
    -- two steps: over the backslash, and over the character that it takes with it
    have hback : (⟨.quoted mark, owed⟩ : Nesting).step '\\' = some ⟨.escaped mark, owed⟩ := rfl
    have hnext : (⟨.escaped mark, owed⟩ : Nesting).step c = some ⟨.quoted mark, owed⟩ := rfl
    rw [List.cons_append, List.cons_append, Nesting.run_cons_of_step hback,
      Nesting.run_cons_of_step hnext, ih]
  | other hne hback _ ih =>
    rw [List.cons_append, Nesting.run_cons_of_step (step_quotedOther hne hback owed), ih]

/-- A reader that is back in code has left the quoted piece that it stood in, behind a body. -/
theorem exists_quotedBody {mark : Char} {owed : List Char} {last : Nesting}
    (hlast : last.mode = .code) (t : Text)
    (h : (⟨.quoted mark, owed⟩ : Nesting).run t = some last) :
    ∃ body rest, t = body ++ mark :: rest ∧ QuotedBody mark body ∧
      (⟨.code, owed⟩ : Nesting).run rest = some last := by
  match t with
  | [] =>
    cases h
    cases hlast
  | c :: rest =>
    by_cases hback : c = '\\'
    · subst hback
      match rest with
      | [] =>
        cases h
        cases hlast
      | d :: rest =>
        obtain ⟨body, behind, rfl, hbody, hrun⟩ := exists_quotedBody hlast rest h
        exact ⟨'\\' :: d :: body, behind, rfl, .escape d hbody, hrun⟩
    · by_cases hmark : c = mark
      · subst hmark
        rw [Nesting.run_cons_of_step (step_closingMark hback owed)] at h
        exact ⟨[], rest, rfl, .nil, h⟩
      · rw [Nesting.run_cons_of_step (step_quotedOther hmark hback owed)] at h
        obtain ⟨body, behind, rfl, hbody, hrun⟩ := exists_quotedBody hlast rest h
        exact ⟨c :: body, behind, rfl, .other hmark hback hbody, hrun⟩

/-! ## What the grammar derives -/

theorem WellNested.isBalanced {t : Text} (h : WellNested t) : IsBalanced t := by
  induction h with
  | nil => rfl
  | @plain c rest hplain _ ih =>
    have hstep : Nesting.outside.step c = some .outside := step_of_isPlain rfl hplain
    exact (Nesting.run_cons_of_step hstep rest).trans ih
  | @quoted mark body rest hmark hbody _ ih =>
    calc Nesting.outside.run (mark :: (body ++ mark :: rest))
        = (⟨.quoted mark, []⟩ : Nesting).run (body ++ mark :: rest) :=
          Nesting.run_cons_of_step (step_openingMark hmark) _
      _ = Nesting.outside.run rest := hbody.run_eq hmark [] rest
      _ = some .outside := ih
  | @bracketed first close inner rest hclose _ _ ihinner ihrest =>
    calc Nesting.outside.run (first :: (inner ++ close :: rest))
        = (Nesting.outside.enclose [close]).run (inner ++ close :: rest) :=
          Nesting.run_cons_of_step (step_opener hclose) _
      _ = (Nesting.outside.enclose [close]).run (close :: rest) :=
          Nesting.run_append (ihinner.run_eq rfl) _
      _ = Nesting.outside.run rest := Nesting.run_cons_of_step (step_closer hclose) rest
      _ = some .outside := ihrest

/-- What the first character of a text does to a reader outside everything. -/
theorem step_outside_cases {c : Char} {next : Nesting} (h : Nesting.outside.step c = some next) :
    (isPlain c ∧ next = .outside) ∨ (isQuoteMark c ∧ next = ⟨.quoted c, []⟩) ∨
      ∃ close, closerOf c = some close ∧ next = Nesting.outside.enclose [close] := by
  cases hclose : closerOf c with
  | some close =>
    rw [step_opener hclose] at h
    exact .inr (.inr ⟨close, rfl, (Option.some.inj h).symm⟩)
  | none =>
    by_cases hquote : isQuoteMark c
    · exact .inr (.inl ⟨hquote, Option.some.inj (h.symm.trans (step_openingMark hquote))⟩)
    · cases hcloser : isCloser c with
      | true => simp [Nesting.step, Nesting.outside, hquote, hclose, hcloser] at h
      | false =>
        have hplain : isPlain c := by simp [isPlain, hquote, hclose, hcloser]
        exact .inl ⟨hplain, Option.some.inj (h.symm.trans (step_of_isPlain rfl hplain))⟩

theorem IsBalanced.wellNested {t : Text} (h : IsBalanced t) : WellNested t := by
  -- on the length, since what stands behind a quoted piece or a bracket is no direct tail
  induction hlength : t.length using Nat.strongRecOn generalizing t with
  | ind length ih =>
    subst hlength
    cases t with
    | nil => exact .nil
    | cons c rest =>
      obtain ⟨next, hstep, hrest⟩ := Nesting.run_cons_eq_some.mp h
      rcases step_outside_cases hstep with ⟨hplain, rfl⟩ | ⟨hquote, rfl⟩ | ⟨close, hclose, rfl⟩
      · exact .plain hplain (ih _ (Nat.lt_succ_self _) hrest rfl)
      · obtain ⟨body, behind, rfl, hbody, hbehind⟩ := exists_quotedBody rfl rest hrest
        have hshorter : behind.length < (c :: (body ++ c :: behind)).length := by
          simp only [List.length_cons, List.length_append]
          omega
        exact .quoted hquote hbody (ih _ hshorter hbehind rfl)
      · rcases Nesting.closed_or_open .outside close rest with
          ⟨inner, behind, rfl, hinner⟩ | ⟨-, hopen⟩
        · have hinside : IsBalanced inner := hinner
          rw [Nesting.run_append (hinside.run_eq rfl),
            Nesting.run_cons_of_step (step_closer hclose)] at hrest
          have hshorter : inner.length < (c :: (inner ++ close :: behind)).length ∧
              behind.length < (c :: (inner ++ close :: behind)).length := by
            simp only [List.length_cons, List.length_append]
            omega
          exact .bracketed hclose (ih _ hshorter.1 hinside rfl) (ih _ hshorter.2 hrest rfl)
        · exact absurd rfl (hopen _ hrest)

/-- **Grammar and reader agree.** The well-nested texts are those that take a reader back outside. -/
theorem wellNested_iff_isBalanced {t : Text} : WellNested t ↔ IsBalanced t :=
  ⟨WellNested.isBalanced, IsBalanced.wellNested⟩

/-! ## The closing bracket -/

/-- The bracket at `stop` closes the one at `start`: the two belong together, and the text between
them is well nested. -/
structure IsClosedAt (t : Text) (start stop : Nat) : Prop where
  lt : start < stop
  pair : ∃ first close, t[start]? = some first ∧ closerOf first = some close ∧
    t[stop]? = some close
  inside : WellNested ((t.take stop).drop (start + 1))

/-- Which bracket closes the one that is open in front of a text. -/
theorem closeOffset_eq_some_iff_wellNested {first close : Char}
    (hfirst : closerOf first = some close) {t : Text} {offset : Nat} :
    (Nesting.outside.enclose [close]).closeOffset t = some offset ↔
      t[offset]? = some close ∧ WellNested (t.take offset) := by
  rw [closeOffset_eq_some_iff hfirst]
  constructor
  · rintro ⟨inner, rest, rfl, hinner, rfl⟩
    exact ⟨by simp, by simpa using hinner.wellNested⟩
  · rintro ⟨hclose, hinside⟩
    obtain ⟨hlt, hget⟩ := List.getElem?_eq_some_iff.mp hclose
    have hlength : (t.take offset).length = offset := List.length_take_of_le (Nat.le_of_lt hlt)
    refine ⟨t.take offset, t.drop (offset + 1), ?_, hinside.isBalanced, hlength⟩
    rw [← hget, ← List.drop_eq_getElem_cons hlt, List.take_append_drop]

/-- The search from an opening bracket is the search behind it for the bracket that it owes. -/
theorem matchingClose_of_opener {t : Text} {start : Nat} {first close : Char}
    (hfirst : t[start]? = some first) (hclose : closerOf first = some close) :
    matchingClose t start =
      ((Nesting.outside.enclose [close]).closeOffset (t.drop (start + 1))).map
        (· + (start + 1)) := by
  obtain ⟨hlt, hget⟩ := List.getElem?_eq_some_iff.mp hfirst
  rw [matchingClose, List.drop_eq_getElem_cons hlt, hget, closeOffset_opener hclose,
    Option.map_map]
  refine congrArg (Option.map · _) (funext fun offset => ?_)
  rw [Function.comp_apply, Nat.add_assoc, Nat.add_comm 1 start]

/-- **Matching brackets.** From an opening bracket, the search finds exactly the bracket that closes
it with a well-nested text in between. There is at most one such bracket, and nothing is found
exactly if there is none. -/
theorem closing_bracket_found {t : Text} {start : Nat} {first : Char}
    (hfirst : t[start]? = some first) (hopen : (closerOf first).isSome) :
    (∀ stop, matchingClose t start = some stop ↔ IsClosedAt t start stop) ∧
      (matchingClose t start = none ↔ ¬ ∃ stop, IsClosedAt t start stop) ∧
      ∀ stop other, IsClosedAt t start stop → IsClosedAt t start other → stop = other := by
  obtain ⟨close, hclose⟩ := Option.isSome_iff_exists.mp hopen
  have hfound : ∀ stop, matchingClose t start = some stop ↔ IsClosedAt t start stop := by
    intro stop
    rw [matchingClose_of_opener hfirst hclose, Option.map_eq_some_iff]
    constructor
    · rintro ⟨offset, hoffset, rfl⟩
      obtain ⟨hcloser, hinside⟩ := (closeOffset_eq_some_iff_wellNested hclose).mp hoffset
      rw [List.getElem?_drop] at hcloser
      refine ⟨by omega, ⟨first, close, hfirst, hclose, ?_⟩, ?_⟩
      · rwa [Nat.add_comm]
      · rwa [List.drop_take, Nat.add_sub_cancel]
    · rintro ⟨hbehind, ⟨first', close', hfirst', hclose', hcloser⟩, hinside⟩
      cases hfirst.symm.trans hfirst'
      cases hclose.symm.trans hclose'
      refine ⟨stop - (start + 1), (closeOffset_eq_some_iff_wellNested hclose).mpr ⟨?_, ?_⟩, ?_⟩
      · rwa [List.getElem?_drop, Nat.add_sub_cancel' hbehind]
      · rwa [List.drop_take] at hinside
      · exact Nat.sub_add_cancel hbehind
  refine ⟨hfound, ?_, fun stop other h h' => ?_⟩
  · rw [Option.eq_none_iff_forall_ne_some]
    exact ⟨fun hnone ⟨stop, h⟩ => hnone stop ((hfound stop).mpr h),
      fun hnone stop h => hnone ⟨stop, (hfound stop).mp h⟩⟩
  · exact Option.some.inj (((hfound stop).mpr h).symm.trans ((hfound other).mpr h'))

/-- The parentheses of an argument list with a quoted bracket and inner brackets, and parentheses
that a quoted piece without an end keeps open. -/
theorem argument_list_closed :
    let closed : Text := "f([')\\'', a], g(b)) + (c)"
    let unclosed : Text := "f(']) \\')"
    closed[1]? = some '(' ∧ unclosed[1]? = some '(' ∧ (closerOf '(').isSome ∧
      IsClosedAt closed 1 18 ∧ ¬ ∃ stop, IsClosedAt unclosed 1 stop := by
  intro closed unclosed
  have hclosed : closed[1]? = some '(' := by decide
  have hunclosed : unclosed[1]? = some '(' := by decide
  have hopen : (closerOf '(').isSome := by decide
  exact ⟨hclosed, hunclosed, hopen,
    ((closing_bracket_found hclosed hopen).1 18).mp (by decide),
    (closing_bracket_found hunclosed hopen).2.1.mp (by decide)⟩

end Expression

end ModelSchemas

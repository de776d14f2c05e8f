import Mathlib.Tactic.SplitIfs
import ModelSchemas.Expression.Nesting

/-!
# Balanced text

A text is balanced when it takes a reader that stands outside everything back there. Such a text
may stand in any brackets: the steps over it never see what was owed before, and the bracket that
closes behind it closes what was opened in front of it.
-/

namespace ModelSchemas

namespace Expression

/-! ## Character roles -/

/-- The quote marks and brackets. -/
def delimiters : List Char := ['\'', '"', '`', '(', ')', '[', ']', '\x7b', '\x7d']

/-- What holds of no delimiter tells plain characters. -/
theorem isPlain_of_forall_ne {c : Char} (h : ∀ mark ∈ delimiters, c ≠ mark) : isPlain c := by
  simp only [delimiters, List.forall_mem_cons] at h
  obtain ⟨h₁, h₂, h₃, h₄, h₅, h₆, h₇, h₈, h₉, -⟩ := h
  have hcloser : closerOf c = none := by
    unfold closerOf
    split <;> first | contradiction | rfl
  simp [isPlain, isQuoteMark, isCloser, *]

/-- A class of characters without delimiters holds plain characters only. -/
theorem isPlain_of_class {p : Char → Bool} (hp : delimiters.all (fun mark => !p mark)) {c : Char}
    (h : p c) : isPlain c := by
  refine isPlain_of_forall_ne fun mark hmark heq => ?_
  have hnot := List.all_eq_true.mp hp mark hmark
  rw [← heq, h] at hnot
  cases hnot

/-- The opening brackets with the brackets that close them. -/
theorem cases_of_closerOf {first close : Char} (h : closerOf first = some close) :
    (first = '(' ∧ close = ')') ∨ (first = '[' ∧ close = ']') ∨
      (first = '\x7b' ∧ close = '\x7d') := by
  unfold closerOf at h
  split at h
  · exact .inl ⟨rfl, (Option.some.inj h).symm⟩
  · exact .inr (.inl ⟨rfl, (Option.some.inj h).symm⟩)
  · exact .inr (.inr ⟨rfl, (Option.some.inj h).symm⟩)
  · cases h

theorem not_isQuoteMark_of_isCloser {c : Char} (h : isCloser c) : isQuoteMark c = false := by
  simp only [isCloser, Bool.or_eq_true, decide_eq_true_eq, or_assoc] at h
  rcases h with rfl | rfl | rfl <;> rfl

/-! ## Modes -/

namespace Mode

/-- The mode after a character; brackets do not matter to it. -/
def next : Mode → Char → Mode
  | escaped mark, _ => quoted mark
  | quoted mark, c => if c = '\\' then escaped mark else if c = mark then code else quoted mark
  | code, c => if isQuoteMark c then quoted c else code

/-- The mark that a reader waits for, if it does, is a quote mark. -/
def IsProper : Mode → Prop
  | code => True
  | quoted mark => isQuoteMark mark
  | escaped mark => isQuoteMark mark

theorem IsProper.next {mode : Mode} (h : mode.IsProper) (c : Char) : (mode.next c).IsProper := by
  cases mode with
  | escaped mark => exact h
  | quoted mark =>
    simp only [Mode.next]
    split_ifs
    · exact h
    · trivial
    · exact h
  | code =>
    simp only [Mode.next]
    split_ifs with hquote
    · exact hquote
    · trivial

/-- Only a quote mark leads from a quoted piece into code. -/
theorem eq_code_of_next {mode : Mode} (h : mode.IsProper) {c : Char} (hc : isQuoteMark c = false)
    (hnext : mode.next c = code) : mode = code := by
  cases mode with
  | escaped mark => cases hnext
  | quoted mark =>
    simp only [Mode.next] at hnext
    split_ifs at hnext with hback hmark
    have hquote : isQuoteMark mark := h
    rw [← hmark, hc] at hquote
    cases hquote
  | code => rfl

end Mode

namespace Nesting

/-! ## Runs -/

/-- Where a reader stands after a text. -/
def run (n : Nesting) : Text → Option Nesting
  | [] => some n
  | c :: rest =>
    match n.step c with
    | none => none
    | some next => next.run rest

theorem run_cons_of_step {n next : Nesting} {c : Char} (h : n.step c = some next) (rest : Text) :
    n.run (c :: rest) = next.run rest := by
  rw [run, h]

theorem run_cons_eq_some {n last : Nesting} {c : Char} {rest : Text} :
    n.run (c :: rest) = some last ↔ ∃ next, n.step c = some next ∧ next.run rest = some last := by
  rw [run]
  cases n.step c <;> simp

theorem run_append {n mid : Nesting} {t : Text} (h : n.run t = some mid) (u : Text) :
    n.run (t ++ u) = mid.run u := by
  induction t generalizing n with
  | nil =>
    cases h
    rfl
  | cons c rest ih =>
    obtain ⟨next, hstep, hrest⟩ := run_cons_eq_some.mp h
    rw [List.cons_append, run_cons_of_step hstep]
    exact ih hrest

/-- How one character changes what is owed. An opening bracket owes the bracket that closes it, a
closing bracket pays for itself if its turn has come, and all other characters change nothing, nor
do brackets in a quoted piece. -/
inductive Owes (mode : Mode) (c : Char) : List Char → List Char → Prop where
  | kept {owed : List Char} (h : mode = .code → isQuoteMark c ∨ isPlain c) : Owes mode c owed owed
  | opened {owed : List Char} {close : Char} (hmode : mode = .code) (h : closerOf c = some close) :
      Owes mode c owed (close :: owed)
  | closed {owed : List Char} (hmode : mode = .code) (h : isCloser c) : Owes mode c (c :: owed) owed

/-- **What one step does** to the mode and to what is owed. -/
theorem step_eq_some_iff {n next : Nesting} {c : Char} :
    n.step c = some next ↔ next.mode = n.mode.next c ∧ Owes n.mode c n.owed next.owed := by
  obtain ⟨mode, owed⟩ := n
  obtain ⟨mode', owed'⟩ := next
  constructor
  · intro h
    cases mode with
    | escaped mark =>
      cases h
      exact ⟨rfl, .kept nofun⟩
    | quoted mark =>
      simp only [step, Mode.next] at h ⊢
      split_ifs at h ⊢ <;> cases h <;> exact ⟨rfl, .kept nofun⟩
    | code =>
      simp only [step, Mode.next] at h ⊢
      by_cases hquote : isQuoteMark c
      · rw [if_pos hquote] at h ⊢
        cases h
        exact ⟨rfl, .kept fun _ => .inl hquote⟩
      · rw [if_neg hquote] at h ⊢
        cases hcloser : closerOf c with
        | some close =>
          simp only [hcloser] at h
          cases h
          exact ⟨rfl, .opened rfl hcloser⟩
        | none =>
          simp only [hcloser] at h
          split_ifs at h with hclose
          · cases owed with
            | nil => cases h
            | cons innermost owed =>
              simp only [] at h
              split_ifs at h with heq
              cases h
              rw [heq]
              exact ⟨rfl, .closed rfl hclose⟩
          · cases h
            exact ⟨rfl, .kept fun _ => .inr (by simp [isPlain, hquote, hcloser, hclose])⟩
  · rintro ⟨hmode, howes⟩
    change mode' = mode.next c at hmode
    change Owes mode c owed owed' at howes
    subst hmode
    cases howes with
    | kept hkept =>
      cases mode with
      | escaped mark => rfl
      | quoted mark =>
        simp only [step, Mode.next]
        split_ifs <;> rfl
      | code =>
        rcases hkept rfl with hquote | hplain
        · simp only [step, Mode.next, hquote, if_true]
        · simp only [isPlain, Bool.and_eq_true, Bool.not_eq_true', Option.isNone_iff_eq_none]
            at hplain
          simp [step, Mode.next, hplain]
    | opened hmode hcloser =>
      cases hmode
      rcases cases_of_closerOf hcloser with ⟨rfl, rfl⟩ | ⟨rfl, rfl⟩ | ⟨rfl, rfl⟩ <;> rfl
    | closed hmode hclose =>
      cases hmode
      simp only [isCloser, Bool.or_eq_true, decide_eq_true_eq, or_assoc] at hclose
      rcases hclose with rfl | rfl | rfl <;> rfl

theorem mode_of_step {n next : Nesting} {c : Char} (h : n.step c = some next) :
    next.mode = n.mode.next c :=
  (step_eq_some_iff.mp h).1

/-- A text without quote marks leads into code only from code. -/
theorem mode_eq_code_of_run {n last : Nesting} {t : Text} (h : n.run t = some last)
    (hn : n.mode.IsProper) (ht : ∀ c ∈ t, isQuoteMark c = false) (hlast : last.mode = .code) :
    n.mode = .code := by
  induction t generalizing n with
  | nil =>
    cases h
    exact hlast
  | cons c rest ih =>
    obtain ⟨next, hstep, hrest⟩ := run_cons_eq_some.mp h
    have hmode : next.mode = n.mode.next c := mode_of_step hstep
    have hnext : next.mode = .code :=
      ih hrest (hmode ▸ hn.next c) fun d hd => ht d (List.mem_cons_of_mem c hd)
    exact Mode.eq_code_of_next hn (ht c List.mem_cons_self) (hmode ▸ hnext)

/-! ## Brackets around a text -/

/-- The same place, with further brackets open around it. -/
def enclose (n : Nesting) (more : List Char) : Nesting := { n with owed := n.owed ++ more }

/-- A step does not see what is open further out. -/
theorem step_enclose {n next : Nesting} {c : Char} (h : n.step c = some next) (more : List Char) :
    (n.enclose more).step c = some (next.enclose more) := by
  obtain ⟨mode, owed⟩ := n
  obtain ⟨mode', owed'⟩ := next
  obtain ⟨hmode, howes⟩ := step_eq_some_iff.mp h
  change Owes mode c owed owed' at howes
  refine step_eq_some_iff.mpr ⟨hmode, ?_⟩
  cases howes with
  | kept hkept => exact .kept hkept
  | opened hcode hcloser => exact .opened hcode hcloser
  | closed hcode hclose => exact .closed hcode hclose

theorem run_enclose {n last : Nesting} {t : Text} (h : n.run t = some last) (more : List Char) :
    (n.enclose more).run t = some (last.enclose more) := by
  induction t generalizing n with
  | nil =>
    cases h
    rfl
  | cons c rest ih =>
    obtain ⟨next, hstep, hrest⟩ := run_cons_eq_some.mp h
    rw [run_cons_of_step (step_enclose hstep more), ih hrest]

/-- What is open around a step stays open, so that the step is not the closing one. -/
theorem closes_enclose {n next : Nesting} {more : List Char} (hmore : more ≠ []) :
    (n.enclose more).closes (next.enclose more) = false := by
  simp [closes, enclose, hmore]

/-- The search for the last closing bracket passes over a text that leaves a bracket open around
it. -/
theorem closeOffset_enclose {n last : Nesting} {t : Text} (h : n.run t = some last)
    {more : List Char} (hmore : more ≠ []) (rest : Text) :
    (n.enclose more).closeOffset (t ++ rest) =
      ((last.enclose more).closeOffset rest).map (· + t.length) := by
  induction t generalizing n with
  | nil =>
    cases h
    simp
  | cons c t ih =>
    obtain ⟨next, hstep, hrest⟩ := run_cons_eq_some.mp h
    rw [List.cons_append, closeOffset]
    simp only [step_enclose hstep more, closes_enclose hmore, ih hrest, Option.map_map]
    rfl

/-- A step inside a bracket is a step that does not see it, or the step that closes it. -/
theorem step_inside {n next : Nesting} {c close : Char}
    (h : (n.enclose [close]).step c = some next) :
    (∃ inner, n.step c = some inner ∧ next = inner.enclose [close]) ∨
      (n = outside ∧ c = close ∧ next = outside) := by
  obtain ⟨mode, owed⟩ := n
  obtain ⟨mode', owed'⟩ := next
  obtain ⟨hmode, howes⟩ := step_eq_some_iff.mp h
  change mode' = mode.next c at hmode
  change Owes mode c (owed ++ [close]) owed' at howes
  subst hmode
  generalize hall : owed ++ [close] = all at howes
  cases howes with
  | kept hkept =>
    subst hall
    exact .inl ⟨⟨mode.next c, owed⟩, step_eq_some_iff.mpr ⟨rfl, .kept hkept⟩, rfl⟩
  | @opened _ further hcode hcloser =>
    subst hall
    exact .inl ⟨⟨mode.next c, further :: owed⟩,
      step_eq_some_iff.mpr ⟨rfl, .opened hcode hcloser⟩, rfl⟩
  | closed hcode hclose =>
    cases owed with
    | nil =>
      cases hall
      subst hcode
      have hquote : isQuoteMark c = false := not_isQuoteMark_of_isCloser hclose
      exact .inr ⟨rfl, rfl, by simp [Mode.next, hquote, outside]⟩
    | cons innermost owed =>
      cases hall
      exact .inl ⟨⟨mode.next c, owed⟩, step_eq_some_iff.mpr ⟨rfl, .closed hcode hclose⟩, rfl⟩

/-- **Where a bracket closes.** Either the bracket open around a text closes in it, behind a text
that leaves nothing else open, or no step over the text closes it. -/
theorem closed_or_open (n : Nesting) (close : Char) (t : Text) :
    (∃ inner rest, t = inner ++ close :: rest ∧ n.run inner = some outside) ∨
      ((n.enclose [close]).closeOffset t = none ∧
        ∀ last, (n.enclose [close]).run t = some last → last.owed ≠ []) := by
  induction t generalizing n with
  | nil =>
    right
    refine ⟨rfl, fun last hlast => ?_⟩
    cases hlast
    simp [enclose]
  | cons c rest ih =>
    cases hstep : (n.enclose [close]).step c with
    | none => exact .inr ⟨by rw [closeOffset, hstep], by simp [run, hstep]⟩
    | some next =>
      rcases step_inside hstep with ⟨inner, hinner, rfl⟩ | ⟨rfl, rfl, -⟩
      · rcases ih inner with ⟨body, behind, rfl, hbody⟩ | ⟨hnone, hopen⟩
        · exact .inl ⟨c :: body, behind, rfl, (run_cons_of_step hinner body).trans hbody⟩
        · right
          rw [closeOffset, run_cons_of_step hstep]
          simp only [hstep, closes_enclose (List.cons_ne_nil close []), hnone]
          exact ⟨rfl, hopen⟩
      · exact .inl ⟨[], rest, rfl, rfl⟩

end Nesting

/-! ## Balanced text -/

/-- A reader outside everything is outside everything again after the text. -/
def IsBalanced (t : Text) : Prop := Nesting.outside.run t = some .outside

theorem isBalanced_nil : IsBalanced [] := rfl

theorem IsBalanced.append {t u : Text} (ht : IsBalanced t) (hu : IsBalanced u) :
    IsBalanced (t ++ u) :=
  (Nesting.run_append ht u).trans hu

/-- In code a balanced text leaves everything as it is, whatever is open around it. -/
theorem IsBalanced.run_eq {t : Text} (h : IsBalanced t) {n : Nesting} (hn : n.mode = .code) :
    n.run t = some n := by
  obtain ⟨mode, owed⟩ := n
  obtain rfl : mode = .code := hn
  exact Nesting.run_enclose h owed

/-- In code a plain character changes nothing. -/
theorem step_of_isPlain {n : Nesting} (hn : n.mode = .code) {c : Char} (h : isPlain c) :
    n.step c = some n := by
  simp only [isPlain, Bool.and_eq_true, Bool.not_eq_true', Option.isNone_iff_eq_none] at h
  simp [Nesting.step, hn, h]

theorem isBalanced_of_plain {t : Text} (h : t.all isPlain) : IsBalanced t := by
  induction t with
  | nil => rfl
  | cons c rest ih =>
    obtain ⟨hc, hrest⟩ := Bool.and_eq_true_iff.mp h
    have hstep : Nesting.outside.step c = some .outside := step_of_isPlain rfl hc
    exact (Nesting.run_cons_of_step hstep rest).trans (ih hrest)

/-! ## Brackets -/

theorem step_opener {first close : Char} (h : closerOf first = some close) :
    Nesting.outside.step first = some (Nesting.outside.enclose [close]) := by
  rcases cases_of_closerOf h with ⟨rfl, rfl⟩ | ⟨rfl, rfl⟩ | ⟨rfl, rfl⟩ <;> rfl

theorem step_closer {first close : Char} (h : closerOf first = some close) :
    (Nesting.outside.enclose [close]).step close = some .outside := by
  rcases cases_of_closerOf h with ⟨rfl, rfl⟩ | ⟨rfl, rfl⟩ | ⟨rfl, rfl⟩ <;> rfl

theorem closeOffset_opener {first close : Char} (h : closerOf first = some close) (rest : Text) :
    Nesting.outside.closeOffset (first :: rest) =
      ((Nesting.outside.enclose [close]).closeOffset rest).map (· + 1) := by
  rw [Nesting.closeOffset, step_opener h]
  rfl

/-- The bracket that is open around a text closes behind the balanced text that it starts with, and
nowhere else. -/
theorem closeOffset_eq_some_iff {first close : Char} (hfirst : closerOf first = some close)
    {t : Text} {offset : Nat} :
    (Nesting.outside.enclose [close]).closeOffset t = some offset ↔
      ∃ inner rest, t = inner ++ close :: rest ∧ IsBalanced inner ∧ inner.length = offset := by
  have hfound : ∀ {inner : Text} (rest : Text), IsBalanced inner →
      (Nesting.outside.enclose [close]).closeOffset (inner ++ close :: rest) =
        some inner.length := by
    intro inner rest hinner
    have hclose : (Nesting.outside.enclose [close]).closeOffset (close :: rest) = some 0 := by
      rw [Nesting.closeOffset, step_closer hfirst]
      rfl
    rw [Nesting.closeOffset_enclose hinner (List.cons_ne_nil _ _), hclose]
    simp
  constructor
  · intro h
    rcases Nesting.closed_or_open .outside close t with ⟨inner, rest, rfl, hinner⟩ | ⟨hnone, -⟩
    · exact ⟨inner, rest, rfl, hinner, Option.some.inj ((hfound rest hinner).symm.trans h)⟩
    · rw [hnone] at h
      cases h
  · rintro ⟨inner, rest, rfl, hinner, rfl⟩
    exact hfound rest hinner

/-- The bracket that opens in front of a balanced text closes behind it. -/
theorem matchingClose_bracketed {first close : Char} (hfirst : closerOf first = some close)
    {t : Text} (h : IsBalanced t) :
    matchingClose (first :: (t ++ [close])) 0 = some (t ++ [close]).length := by
  have hclose := (closeOffset_eq_some_iff hfirst).mpr ⟨t, [], rfl, h, rfl⟩
  rw [matchingClose, List.drop_zero, closeOffset_opener hfirst, hclose]
  simp

/-- A text that is bracketed as a whole ends with the closing bracket. -/
theorem eq_concat_of_matchingClose {first close : Char} (hfirst : closerOf first = some close)
    {inner : Text} (h : matchingClose (first :: inner) 0 = some inner.length) :
    inner = inner.dropLast ++ [close] := by
  rw [matchingClose, List.drop_zero, closeOffset_opener hfirst, Option.map_map] at h
  obtain ⟨offset, hoffset, hlength⟩ := Option.map_eq_some_iff.mp h
  obtain ⟨body, rest, rfl, -, rfl⟩ := (closeOffset_eq_some_iff hfirst).mp hoffset
  obtain rfl : rest = [] := by
    rw [← List.length_eq_zero_iff]
    simp only [Function.comp_apply, List.length_append, List.length_cons] at hlength
    omega
  rw [List.dropLast_concat]

end Expression

end ModelSchemas

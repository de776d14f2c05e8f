import ModelSchemas.Proofs.Expression.Splitting
import ModelSchemas.Proofs.Text.Join

/-!
# Whole pieces

How the scanner passes over the texts that pieces are made of: plain text, generic arguments,
brackets around balanced text, and blanks, which may come and go at the ends of a whole piece.
-/

namespace ModelSchemas

namespace Expression

open Scanner

variable {separator : Char}

/-! ## Plain text -/

/-- Plain text without angle brackets; a separator may stand in it only inside generic arguments. -/
def IsOrdinary (separator : Char) (angles : Nat) (t : Text) : Prop :=
  ∀ c ∈ t, isPlain c ∧ c ≠ '<' ∧ c ≠ '>' ∧ (angles = 0 → c ≠ separator)

theorem passes_ordinary {angles : Nat} {t : Text} (h : IsOrdinary separator angles t)
    (previous : Option Char) :
    Passes separator ⟨.outside, angles, previous⟩ t ⟨.outside, angles, t.getLast?.or previous⟩ := by
  induction t generalizing previous with
  | nil => exact .nil _
  | cons c rest ih =>
    obtain ⟨hplain, hless, hgreater, hseparator⟩ := h c List.mem_cons_self
    have hcut : (⟨.outside, angles, previous⟩ : Scanner).cuts separator c = false := by
      by_cases hangles : angles = 0
      · exact cuts_of_ne (hseparator hangles)
      · exact cuts_of_not_isDone (by simp [isDone, hangles]) c
    have hrest := ih (fun d hd => h d (List.mem_cons_of_mem c hd)) (some c)
    rw [show (c :: rest).getLast?.or previous = rest.getLast?.or (some c) by
      cases rest <;> simp [List.getLast?_cons]]
    exact .cons hcut (step_outside hplain hless hgreater) hrest

/-! ## Generic arguments -/

/-- Plain text that holds neither an angle bracket nor an equals sign. -/
def IsPlainInside (t : Text) : Prop := ∀ c ∈ t, isPlain c ∧ c ≠ '<' ∧ c ≠ '>' ∧ c ≠ '='

/-- An angle bracket after a name opens generic arguments. -/
theorem step_less {previous : Option Char} (h : previous.any endsName) :
    (⟨.outside, 0, previous⟩ : Scanner).step '<' = some ⟨.outside, 1, some '<'⟩ := by
  have hplain : isPlain '<' := by decide
  simp [step, step_of_isPlain (n := .outside) rfl hplain, opensAngle, isBare, Nesting.isOutside,
    hplain, h]

/-- The angle bracket that is no part of an arrow closes them. -/
theorem step_greater {previous : Option Char} (h : previous ≠ some '=') :
    (⟨.outside, 1, previous⟩ : Scanner).step '>' = some ⟨.outside, 0, some '>'⟩ := by
  have hplain : isPlain '>' := by decide
  simp [step, step_of_isPlain (n := .outside) rfl hplain, opensAngle, closesAngle, isBare,
    Nesting.isOutside, hplain, h]

/-- The scanner is outside again behind generic arguments that follow a name. -/
theorem passes_typeArgs (hsep : IsSeparator separator) {previous : Option Char} {t : Text}
    (hprevious : previous.any endsName) (h : IsPlainInside t) :
    Passes separator ⟨.outside, 0, previous⟩ ('<' :: t ++ ['>']) ⟨.outside, 0, some '>'⟩ := by
  have hordinary : IsOrdinary separator 1 t := fun c hc =>
    ⟨(h c hc).1, (h c hc).2.1, (h c hc).2.2.1, fun hzero => absurd hzero (by decide)⟩
  have hlast : t.getLast?.or (some '<') ≠ some '=' := by
    intro heq
    rcases Option.or_eq_some_iff.mp heq with hmem | ⟨-, hmem⟩
    · exact (h _ (List.mem_of_getLast? hmem)).2.2.2 rfl
    · cases hmem
  refine .cons (cuts_of_ne hsep.ne_less.symm) (step_less hprevious) ?_
  refine (passes_ordinary hordinary (some '<')).append ?_
  exact .cons (cuts_of_ne hsep.ne_greater.symm) (step_greater hlast) (.nil _)

/-! ## Brackets -/

/-- In brackets the scanner passes over everything, as its nesting does. -/
theorem passes_enclosed {n last : Nesting} {t : Text} (h : n.run t = some last)
    {more : List Char} (hmore : more ≠ []) (angles : Nat) (previous : Option Char) :
    ∃ previous', Passes separator ⟨n.enclose more, angles, previous⟩ t
      ⟨last.enclose more, angles, previous'⟩ := by
  induction t generalizing n previous with
  | nil =>
    cases h
    exact ⟨previous, .nil _⟩
  | cons c rest ih =>
    obtain ⟨next, hstep, hrest⟩ := Nesting.run_cons_eq_some.mp h
    obtain ⟨previous', hpass⟩ := ih hrest (some c)
    have hinside : (n.enclose more).isOutside = false := by
      simp [Nesting.isOutside, Nesting.enclose, Nesting.outside, hmore]
    have hcut : (⟨n.enclose more, angles, previous⟩ : Scanner).cuts separator c = false := by
      simp [cuts, isBare, hinside]
    exact ⟨previous', .cons hcut
      (step_nested (Nesting.step_enclose hstep more) hinside angles previous) hpass⟩

theorem isPlain_bracket {first close : Char} (h : closerOf first = some close) :
    isPlain first = false ∧ isPlain close = false := by
  rcases cases_of_closerOf h with ⟨rfl, rfl⟩ | ⟨rfl, rfl⟩ | ⟨rfl, rfl⟩ <;> decide

/-- The scanner is outside again behind a balanced text in brackets. -/
theorem passes_bracketed {first close : Char} (hfirst : closerOf first = some close) {t : Text}
    (h : IsBalanced t) (hsep : IsSeparator separator) (angles : Nat) (previous : Option Char) :
    Passes separator ⟨.outside, angles, previous⟩ (first :: t ++ [close])
      ⟨.outside, angles, some close⟩ := by
  have hne : ∀ {c : Char}, isPlain c = false → c ≠ separator := by
    rintro c hc rfl
    rw [hsep.isPlain] at hc
    cases hc
  obtain ⟨hplain, hplain'⟩ := isPlain_bracket hfirst
  have hopen : (⟨.outside, angles, previous⟩ : Scanner).step first =
      some ⟨Nesting.outside.enclose [close], angles, some first⟩ := by
    simp [step, opensAngle, closesAngle, isBare, hplain, step_opener hfirst]
  obtain ⟨previous', hinside⟩ : ∃ previous',
      Passes separator ⟨Nesting.outside.enclose [close], angles, some first⟩ t
        ⟨Nesting.outside.enclose [close], angles, previous'⟩ :=
    passes_enclosed h (List.cons_ne_nil close []) angles (some first)
  have hclose : (⟨Nesting.outside.enclose [close], angles, previous'⟩ : Scanner).step close =
      some ⟨.outside, angles, some close⟩ := step_nested (step_closer hfirst) rfl angles previous'
  refine .cons (cuts_of_ne (hne hplain)) hopen (hinside.append ?_)
  exact .cons (cuts_of_ne (hne hplain')) hclose (.nil _)

/-! ## Passable text -/

/-- Wherever the scanner is done, it passes over the text and is done again. -/
def IsPassable (separator : Char) (t : Text) : Prop :=
  ∀ previous, ∃ previous',
    Passes separator ⟨.outside, 0, previous⟩ t ⟨.outside, 0, previous'⟩

theorem isPassable_nil : IsPassable separator [] := fun previous => ⟨previous, .nil _⟩

theorem IsPassable.append {t u : Text} (ht : IsPassable separator t)
    (hu : IsPassable separator u) : IsPassable separator (t ++ u) := by
  intro previous
  obtain ⟨previous', ht⟩ := ht previous
  obtain ⟨previous'', hu⟩ := hu previous'
  exact ⟨previous'', ht.append hu⟩

theorem IsPassable.isWhole {t : Text} (h : IsPassable separator t) : IsWhole separator t := by
  obtain ⟨previous, hpass⟩ := h none
  exact ⟨_, hpass, rfl⟩

theorem isPassable_of_isOrdinary {t : Text} (h : IsOrdinary separator 0 t) :
    IsPassable separator t :=
  fun previous => ⟨_, passes_ordinary h previous⟩

theorem isPassable_intercalate {between : Text} (hbetween : IsPassable separator between)
    {texts : List Text} (h : ∀ t ∈ texts, IsPassable separator t) :
    IsPassable separator (List.intercalate between texts) :=
  Text.intercalate_of_append isPassable_nil IsPassable.append hbetween h

/-! ## Neutral text -/

/-- Text that opens and closes nothing but its own brackets. -/
structure IsNeutral (t : Text) : Prop where
  isBalanced : IsBalanced t
  quoteless : ∀ c ∈ t, isQuoteMark c = false
  angleless : ∀ c ∈ t, c ≠ '<' ∧ c ≠ '>'

/-- The characters of a text can be looked through. -/
theorem isNeutral_of_all {t : Text} (h : IsBalanced t)
    (hall : t.all fun c => !isQuoteMark c && c ≠ '<' && c ≠ '>') : IsNeutral t := by
  have hplain : ∀ c ∈ t, isQuoteMark c = false ∧ c ≠ '<' ∧ c ≠ '>' := by
    simpa [and_assoc] using hall
  exact ⟨h, fun c hc => (hplain c hc).1, fun c hc => (hplain c hc).2⟩

theorem IsNeutral.append {t u : Text} (ht : IsNeutral t) (hu : IsNeutral u) :
    IsNeutral (t ++ u) where
  isBalanced := ht.isBalanced.append hu.isBalanced
  quoteless := List.forall_mem_append.mpr ⟨ht.quoteless, hu.quoteless⟩
  angleless := List.forall_mem_append.mpr ⟨ht.angleless, hu.angleless⟩

theorem isNeutral_of_isOrdinary {angles : Nat} {t : Text} (h : IsOrdinary separator angles t) :
    IsNeutral t where
  isBalanced := isBalanced_of_plain (List.all_eq_true.mpr fun c hc => (h c hc).1)
  quoteless c hc := by
    have hplain : isPlain c := (h c hc).1
    simp only [isPlain, Bool.and_eq_true, Bool.not_eq_true'] at hplain
    exact hplain.1.1
  angleless c hc := ⟨(h c hc).2.1, (h c hc).2.2.1⟩

/-- Without angle brackets no generic arguments are opened or closed. -/
theorem angles_of_after {s last : Scanner} {t : Text} (h : s.after t = some last)
    (ht : ∀ c ∈ t, c ≠ '<' ∧ c ≠ '>') : last.angles = s.angles := by
  induction t generalizing s with
  | nil =>
    cases h
    rfl
  | cons c rest ih =>
    obtain ⟨next, hstep, hrest⟩ := Option.bind_eq_some_iff.mp h
    obtain ⟨hless, hgreater⟩ := ht c List.mem_cons_self
    obtain ⟨nesting, -, rfl⟩ := Option.map_eq_some_iff.mp hstep
    rw [ih hrest fun d hd => ht d (List.mem_cons_of_mem c hd)]
    simp [opensAngle, closesAngle, hless, hgreater]

theorem isProper_of_after {s last : Scanner} {t : Text} (h : s.after t = some last)
    (hs : s.nesting.mode.IsProper) : last.nesting.mode.IsProper := by
  induction t generalizing s with
  | nil =>
    cases h
    exact hs
  | cons c rest ih =>
    obtain ⟨next, hstep, hrest⟩ := Option.bind_eq_some_iff.mp h
    refine ih hrest ?_
    rw [Nesting.mode_of_step (nesting_of_step hstep)]
    exact hs.next c

/-- The scanner is done behind a neutral text only if it was in front of it. -/
theorem IsNeutral.isDone_of_after {t : Text} (ht : IsNeutral t) {s last : Scanner}
    (hs : s.nesting.mode.IsProper) (h : s.after t = some last) (hlast : last.isDone) :
    s.isDone := by
  obtain ⟨hout, hangles⟩ := isDone_iff.mp hlast
  have hrun : s.nesting.run t = some .outside := (run_of_after h).trans (congrArg some hout)
  have hcode : s.nesting.mode = .code :=
    Nesting.mode_eq_code_of_run hrun hs ht.quoteless rfl
  refine isDone_iff.mpr ⟨?_, (angles_of_after h ht.angleless).symm.trans hangles⟩
  exact Option.some.inj ((ht.isBalanced.run_eq hcode).symm.trans hrun)

/-! ## Blanks -/

theorem isPlain_of_isBlank {c : Char} (h : Text.isBlank c) : isPlain c :=
  isPlain_of_class (by decide) h

theorem isOrdinary_of_allBlank (hsep : IsSeparator separator) {t : Text} (h : Text.allBlank t)
    (angles : Nat) : IsOrdinary separator angles t := by
  intro c hc
  have hblank : Text.isBlank c := List.all_eq_true.mp h c hc
  refine ⟨isPlain_of_isBlank hblank, ?_, ?_, fun _ => ?_⟩
  · rintro rfl
    exact absurd hblank (by decide)
  · rintro rfl
    exact absurd hblank (by decide)
  · rintro rfl
    rw [hsep.isBlank] at hblank
    cases hblank

theorem isNeutral_of_allBlank {t : Text} (h : Text.allBlank t) : IsNeutral t :=
  isNeutral_of_isOrdinary (isOrdinary_of_allBlank isSeparator_dot h 0)

theorem endsName_of_isBlank {c : Char} (h : Text.isBlank c) : endsName c = false := by
  rw [Bool.eq_false_iff]
  intro hname
  simp only [endsName, Bool.or_eq_true, decide_eq_true_eq] at hname
  rcases hname with (hname | rfl) | rfl
  · have hword : Text.isWordChar c := by simp [Text.isWordChar, hname]
    rw [Text.isBlank_of_isWordChar hword] at h
    cases h
  · exact absurd h (by decide)
  · exact absurd h (by decide)

/-- Behind blanks the scanner is as fresh as at the start. -/
theorem exists_passes_blanks (hsep : IsSeparator separator) {t : Text} (h : Text.allBlank t) :
    ∃ last, Passes separator .start t last ∧ last.IsFresh := by
  refine ⟨_, passes_ordinary (isOrdinary_of_allBlank hsep h 0) none, rfl, ?_⟩
  rw [Option.or_none]
  cases hlast : t.getLast? with
  | none => rfl
  | some c => exact endsName_of_isBlank (List.all_eq_true.mp h c (List.mem_of_getLast? hlast))

/-- Blanks in front of a piece do not matter. -/
theorem isWhole_append_left (hsep : IsSeparator separator) {blanks : Text}
    (h : Text.allBlank blanks) {t : Text} :
    IsWhole separator (blanks ++ t) ↔ IsWhole separator t := by
  obtain ⟨mid, hblanks, hfresh⟩ := exists_passes_blanks hsep h
  rw [isWhole_iff_of_isFresh hfresh (t := t)]
  constructor
  · rintro ⟨last, hpass, hdone⟩
    obtain ⟨mid', hblanks', hrest⟩ := hpass.of_append
    -- there is one way over the blanks, and it ends in a fresh scanner
    cases hblanks.unique hblanks'
    exact ⟨last, hrest, hdone⟩
  · rintro ⟨last, hrest, hdone⟩
    exact ⟨last, hblanks.append hrest, hdone⟩

/-- Blanks behind a piece do not matter. -/
theorem isWhole_append_right (hsep : IsSeparator separator) {blanks : Text}
    (h : Text.allBlank blanks) {t : Text} :
    IsWhole separator (t ++ blanks) ↔ IsWhole separator t := by
  constructor
  · rintro ⟨last, hpass, hdone⟩
    obtain ⟨mid, hpass, hblanks⟩ := hpass.of_append
    have hproper : mid.nesting.mode.IsProper := isProper_of_after hpass.after_eq trivial
    exact ⟨mid, hpass, (isNeutral_of_allBlank h).isDone_of_after hproper hblanks.after_eq hdone⟩
  · rintro ⟨last, hpass, hdone⟩
    obtain ⟨nesting, angles, previous⟩ := last
    obtain ⟨hnesting, hangles⟩ := isDone_iff.mp hdone
    simp only at hnesting hangles
    subst hnesting hangles
    exact ⟨_, hpass.append (passes_ordinary (isOrdinary_of_allBlank hsep h 0) previous), rfl⟩

/-- Trimming leaves a piece whole, and makes none so. -/
theorem isWhole_trim_iff (hsep : IsSeparator separator) {t : Text} :
    IsWhole separator (Text.trim t) ↔ IsWhole separator t := by
  obtain ⟨before, after, hbefore, hafter, heq⟩ := Text.exists_eq_trim_between t
  rw [← isWhole_append_right hsep hafter, ← isWhole_append_left hsep hbefore, ← heq]

end Expression

end ModelSchemas

import ModelSchemas.Expression.Split
import ModelSchemas.Proofs.Expression.Balance
import ModelSchemas.Proofs.Text.Trim

/-!
# Pieces of a split

A piece is whole when the scanner passes over it without a cut and is done behind it. Splitting
gives whole pieces, and joining whole pieces with the separator is undone by splitting: where the
scanner is done, it does not matter how it got there.
-/

namespace ModelSchemas

namespace Expression

/-! ## Separators -/

/-- A character that can separate pieces: it has no other role for the scanner, and is no blank. -/
structure IsSeparator (c : Char) : Prop where
  isPlain : isPlain c
  ne_less : c ≠ '<'
  ne_greater : c ≠ '>'
  endsName : Scanner.endsName c = false
  isBlank : Text.isBlank c = false

theorem isSeparator_dot : IsSeparator '.' := by
  constructor <;> decide

theorem isSeparator_comma : IsSeparator ',' := by
  constructor <;> decide

theorem isSeparator_colon : IsSeparator ':' := by
  constructor <;> decide

/-- The separators of calls in a chain, of arguments and elements, and of the key and the value of a
property. -/
def separators : List Char := ['.', ',', ':']

theorem isSeparator_of_mem {c : Char} (h : c ∈ separators) : IsSeparator c := by
  simp only [separators, List.mem_cons, List.not_mem_nil, or_false] at h
  rcases h with rfl | rfl | rfl
  · exact isSeparator_dot
  · exact isSeparator_comma
  · exact isSeparator_colon

/-! ## Steps of the scanner -/

namespace Scanner

/-- Outside everything, a character without a role changes only what was passed last. -/
theorem step_outside {angles : Nat} {previous : Option Char} {c : Char} (hplain : isPlain c)
    (hless : c ≠ '<') (hgreater : c ≠ '>') :
    (⟨.outside, angles, previous⟩ : Scanner).step c = some ⟨.outside, angles, some c⟩ := by
  simp [step, step_of_isPlain (n := .outside) rfl hplain, opensAngle, closesAngle, hless, hgreater]

/-- In brackets, the scanner follows the nesting and does nothing else. -/
theorem step_nested {n next : Nesting} {c : Char} (h : n.step c = some next)
    (hn : n.isOutside = false) (angles : Nat) (previous : Option Char) :
    (⟨n, angles, previous⟩ : Scanner).step c = some ⟨next, angles, some c⟩ := by
  simp [step, h, opensAngle, closesAngle, isBare, hn]

/-- The nesting of a scanner goes its own way. -/
theorem nesting_of_step {s next : Scanner} {c : Char} (h : s.step c = some next) :
    s.nesting.step c = some next.nesting := by
  obtain ⟨nesting, hstep, rfl⟩ := Option.map_eq_some_iff.mp h
  exact hstep

/-! ## Passing over a text -/

/-- The scanner passes over a text without a cut. -/
inductive Passes (separator : Char) : Scanner → Text → Scanner → Prop where
  | nil (s : Scanner) : Passes separator s [] s
  | cons {s next last : Scanner} {c : Char} {rest : Text} (hcut : s.cuts separator c = false)
      (hstep : s.step c = some next) (hrest : Passes separator next rest last) :
      Passes separator s (c :: rest) last

variable {separator : Char}

theorem Passes.append {s mid last : Scanner} {t u : Text} (h : Passes separator s t mid)
    (h' : Passes separator mid u last) : Passes separator s (t ++ u) last := by
  induction h with
  | nil => exact h'
  | cons hcut hstep _ ih => exact .cons hcut hstep (ih h')

theorem Passes.of_append {s last : Scanner} {t u : Text} (h : Passes separator s (t ++ u) last) :
    ∃ mid, Passes separator s t mid ∧ Passes separator mid u last := by
  induction t generalizing s with
  | nil => exact ⟨s, .nil s, h⟩
  | cons c rest ih =>
    cases h with
    | cons hcut hstep hrest =>
      obtain ⟨mid, hpass, hlast⟩ := ih hrest
      exact ⟨mid, .cons hcut hstep hpass, hlast⟩

theorem Passes.unique {s last last' : Scanner} {t : Text} (h : Passes separator s t last)
    (h' : Passes separator s t last') : last = last' := by
  induction h with
  | nil =>
    cases h'
    rfl
  | cons _ hstep _ ih =>
    cases h' with
    | cons _ hstep' hrest =>
      cases hstep.symm.trans hstep'
      exact ih hrest

/-! ## Where the scanner stands -/

/-- Where the scanner stands after a text, whatever it cuts there. -/
def after (s : Scanner) : Text → Option Scanner
  | [] => some s
  | c :: rest => (s.step c).bind (after · rest)

theorem after_append (s : Scanner) (t u : Text) :
    s.after (t ++ u) = (s.after t).bind (after · u) := by
  induction t generalizing s with
  | nil => rfl
  | cons c rest ih =>
    rw [List.cons_append, after, after, Option.bind_assoc]
    exact Option.bind_congr fun next _ => ih next

/-- The nesting runs over the text as the scanner does. -/
theorem run_of_after {s last : Scanner} {t : Text} (h : s.after t = some last) :
    s.nesting.run t = some last.nesting := by
  induction t generalizing s with
  | nil =>
    cases h
    rfl
  | cons c rest ih =>
    obtain ⟨next, hstep, hrest⟩ := Option.bind_eq_some_iff.mp h
    rw [Nesting.run_cons_of_step (nesting_of_step hstep), ih hrest]

theorem Passes.after_eq {s last : Scanner} {t : Text} (h : Passes separator s t last) :
    s.after t = some last := by
  induction h with
  | nil => rfl
  | cons _ hstep _ ih => rw [after, hstep, Option.bind_some, ih]

theorem Passes.run {s last : Scanner} {t : Text} (h : Passes separator s t last) :
    s.nesting.run t = some last.nesting :=
  run_of_after h.after_eq

/-- Any separator splits a text behind which the scanner is done. -/
theorem exists_pieces_of_after {s last : Scanner} {t : Text} (h : s.after t = some last)
    (hdone : last.isDone) : ∃ pieces, piecesFrom separator s t = some pieces := by
  induction t generalizing s with
  | nil =>
    cases h
    exact ⟨_, if_pos hdone⟩
  | cons c rest ih =>
    obtain ⟨next, hstep, hrest⟩ := Option.bind_eq_some_iff.mp h
    obtain ⟨pieces, hpieces⟩ := ih hrest
    rw [piecesFrom]
    simp only [hstep, hpieces]
    exact ⟨_, rfl⟩

/-- The scanner is done behind a text that is split. -/
theorem exists_after_of_pieces {s : Scanner} {t : Text} {pieces : List Text}
    (h : piecesFrom separator s t = some pieces) : ∃ last, s.after t = some last ∧ last.isDone := by
  induction t generalizing s pieces with
  | nil =>
    rw [piecesFrom] at h
    split_ifs at h with hdone
    exact ⟨s, rfl, hdone⟩
  | cons c rest ih =>
    rw [piecesFrom] at h
    cases hstep : s.step c with
    | none =>
      rw [hstep] at h
      cases h
    | some next =>
      simp only [hstep, Option.map_eq_some_iff] at h
      obtain ⟨found, hfound, -⟩ := h
      rw [after, hstep]
      exact ih hfound

/-! ## Pieces -/

/-- Pieces go on in front when the scanner passes over what comes first. -/
theorem Passes.piecesFrom_append {s mid : Scanner} {t u piece : Text} {more : List Text}
    (h : Passes separator s t mid) (hu : piecesFrom separator mid u = some (piece :: more)) :
    piecesFrom separator s (t ++ u) = some ((t ++ piece) :: more) := by
  induction h with
  | nil => exact hu
  | cons hcut hstep _ ih =>
    rw [List.cons_append, piecesFrom]
    simp only [hstep, hcut, ih hu]
    rfl

/-! ## Fresh scanners -/

theorem isDone_iff {s : Scanner} : s.isDone ↔ s.nesting = .outside ∧ s.angles = 0 := by
  simp [isDone, Nesting.isOutside]

/-- The scanner is where it could be at the start of a text: nothing is open, and no name ends
here. -/
def IsFresh (s : Scanner) : Prop := s.isDone ∧ s.previous.any endsName = false

theorem isFresh_start : start.IsFresh := ⟨rfl, rfl⟩

theorem IsFresh.eq_mk {s : Scanner} (h : s.IsFresh) : s = ⟨.outside, 0, s.previous⟩ := by
  obtain ⟨hnesting, hangles⟩ := isDone_iff.mp h.1
  rw [← hnesting, ← hangles]

theorem IsFresh.step_eq {s : Scanner} (h : s.IsFresh) (c : Char) : s.step c = start.step c := by
  obtain ⟨nesting, angles, previous⟩ := s
  cases h.eq_mk
  have hprevious := h.2
  simp only at hprevious
  simp [step, opensAngle, closesAngle, start, hprevious]

theorem IsFresh.cuts_eq {s : Scanner} (h : s.IsFresh) (c : Char) :
    s.cuts separator c = start.cuts separator c := by
  obtain ⟨nesting, angles, previous⟩ := s
  cases h.eq_mk
  have hprevious := h.2
  simp only at hprevious
  simp [cuts, opensAngle, isBare, start, hprevious]

/-- All fresh scanners find the same pieces. -/
theorem IsFresh.piecesFrom_eq {s : Scanner} (h : s.IsFresh) (t : Text) :
    piecesFrom separator s t = splitTopLevel separator t := by
  unfold splitTopLevel
  cases t with
  | nil => rw [piecesFrom, piecesFrom, h.1, isFresh_start.1]
  | cons c rest => rw [piecesFrom, piecesFrom, h.step_eq, h.cuts_eq]

end Scanner

/-! ## Whole pieces -/

open Scanner

/-- The scanner passes over the piece without a cut and is done behind it. -/
def IsWhole (separator : Char) (t : Text) : Prop :=
  ∃ last, Passes separator .start t last ∧ last.isDone

section

variable {separator : Char}

theorem isWhole_nil : IsWhole separator [] := ⟨.start, .nil _, rfl⟩

/-- It does not matter which fresh scanner passes over a whole piece. -/
theorem isWhole_iff_of_isFresh {s : Scanner} (hs : s.IsFresh) {t : Text} :
    IsWhole separator t ↔ ∃ last, Passes separator s t last ∧ last.isDone := by
  cases t with
  | nil => exact ⟨fun _ => ⟨s, .nil s, hs.1⟩, fun _ => isWhole_nil⟩
  | cons c rest =>
    constructor
    · rintro ⟨last, hpass, hdone⟩
      cases hpass with
      | cons hcut hstep hrest =>
        exact ⟨last, .cons ((hs.cuts_eq c).trans hcut) ((hs.step_eq c).trans hstep) hrest, hdone⟩
    · rintro ⟨last, hpass, hdone⟩
      cases hpass with
      | cons hcut hstep hrest =>
        exact ⟨last, .cons ((hs.cuts_eq c).symm.trans hcut) ((hs.step_eq c).symm.trans hstep) hrest,
          hdone⟩

/-- A whole piece is balanced. -/
theorem IsWhole.isBalanced {t : Text} (h : IsWhole separator t) : IsBalanced t := by
  obtain ⟨last, hpass, hdone⟩ := h
  exact hpass.run.trans (congrArg some (isDone_iff.mp hdone).1)

/-- Where the scanner is done, a separator cuts, and behind it the scanner is fresh again. -/
theorem cuts_of_isDone (hsep : IsSeparator separator) {s : Scanner} (hs : s.isDone) :
    s.cuts separator separator = true ∧ ∃ next, s.step separator = some next ∧ next.IsFresh := by
  obtain ⟨nesting, angles, previous⟩ := s
  obtain ⟨hnesting, hangles⟩ := isDone_iff.mp hs
  simp only at hnesting hangles
  subst hnesting hangles
  refine ⟨?_, _, step_outside hsep.isPlain hsep.ne_less hsep.ne_greater, rfl, hsep.endsName⟩
  simp [cuts, isBare, Nesting.isOutside, hsep.isPlain, opensAngle, hsep.ne_less]

/-- A cut is made at the separator only, where the scanner is done. -/
theorem isDone_of_cuts {s : Scanner} {c : Char} (h : s.cuts separator c = true) :
    c = separator ∧ s.isDone := by
  simp only [cuts, isBare, Bool.and_eq_true, decide_eq_true_eq] at h
  obtain ⟨⟨⟨⟨hout, -⟩, hc⟩, hangles⟩, -⟩ := h
  exact ⟨hc, by simp [isDone, hout, hangles]⟩

theorem cuts_of_ne {s : Scanner} {c : Char} (h : c ≠ separator) : s.cuts separator c = false :=
  Bool.eq_false_iff.mpr fun hcut => h (isDone_of_cuts hcut).1

theorem cuts_of_not_isDone {s : Scanner} (h : s.isDone = false) (c : Char) :
    s.cuts separator c = false := by
  rw [Bool.eq_false_iff]
  intro hcut
  rw [(isDone_of_cuts hcut).2] at h
  cases h

theorem piecesFrom_of_isDone {s : Scanner} (hs : s.isDone) :
    piecesFrom separator s [] = some [[]] :=
  if_pos hs

theorem piecesFrom_separator (hsep : IsSeparator separator) {s : Scanner} (hs : s.isDone)
    (rest : Text) :
    piecesFrom separator s (separator :: rest) =
      (splitTopLevel separator rest).map ([] :: ·) := by
  obtain ⟨hcut, next, hstep, hfresh⟩ := cuts_of_isDone hsep hs
  rw [piecesFrom]
  simp only [hstep, hcut, hfresh.piecesFrom_eq, if_true]

/-! ## Splitting what was joined -/

/-- A whole piece stays in one piece. -/
theorem IsWhole.split {t : Text} (h : IsWhole separator t) :
    splitTopLevel separator t = some [t] := by
  obtain ⟨last, hpass, hdone⟩ := h
  have hsplit := hpass.piecesFrom_append (piecesFrom_of_isDone hdone)
  rwa [List.append_nil] at hsplit

theorem IsWhole.split_append (hsep : IsSeparator separator) {t rest : Text} {more : List Text}
    (h : IsWhole separator t) (hrest : splitTopLevel separator rest = some more) :
    splitTopLevel separator (t ++ separator :: rest) = some (t :: more) := by
  obtain ⟨last, hpass, hdone⟩ := h
  have hcut : piecesFrom separator last (separator :: rest) = some ([] :: more) := by
    rw [piecesFrom_separator hsep hdone, hrest]
    rfl
  have hsplit := hpass.piecesFrom_append hcut
  rwa [List.append_nil] at hsplit

/-- **Joining and splitting.** Whole pieces that are joined with the separator are found again. -/
theorem splitTopLevel_intercalate (hsep : IsSeparator separator) {pieces : List Text}
    (hne : pieces ≠ []) (h : ∀ piece ∈ pieces, IsWhole separator piece) :
    splitTopLevel separator (List.intercalate [separator] pieces) = some pieces := by
  induction pieces with
  | nil => exact absurd rfl hne
  | cons piece more ih =>
    cases more with
    | nil =>
      rw [List.intercalate_singleton]
      exact (h piece List.mem_cons_self).split
    | cons next more =>
      rw [List.intercalate_cons_cons, List.append_assoc]
      refine (h piece List.mem_cons_self).split_append hsep (ih (List.cons_ne_nil _ _) ?_)
      exact fun p hp => h p (List.mem_cons_of_mem _ hp)

/-! ## Pieces of a split -/

/-- What splitting finds first: a piece that the scanner passes over to where it is done, and either
the end of the text or a separator and the other pieces behind it. -/
theorem exists_first_piece (hsep : IsSeparator separator) {s : Scanner} {t : Text}
    {pieces : List Text} (h : piecesFrom separator s t = some pieces) :
    ∃ piece mid, Passes separator s piece mid ∧ mid.isDone ∧
      ((t = piece ∧ pieces = [piece]) ∨
        ∃ rest more, t = piece ++ separator :: rest ∧ pieces = piece :: more ∧
          splitTopLevel separator rest = some more) := by
  -- the induction follows the scanner: what is left of the text is split from its next state
  induction t generalizing s pieces with
  | nil =>
    rw [piecesFrom] at h
    split_ifs at h with hdone
    cases h
    exact ⟨[], s, .nil s, hdone, .inl ⟨rfl, rfl⟩⟩
  | cons c t ih =>
    rw [piecesFrom] at h
    cases hstep : s.step c with
    | none =>
      rw [hstep] at h
      cases h
    | some next =>
      simp only [hstep, Option.map_eq_some_iff] at h
      obtain ⟨found, hfound, rfl⟩ := h
      cases hcut : s.cuts separator c with
      | true =>
        -- a cut ends the piece here, and the rest is split by a fresh scanner
        obtain ⟨rfl, hdone⟩ := isDone_of_cuts hcut
        obtain ⟨-, next', hstep', hfresh⟩ := cuts_of_isDone hsep hdone
        cases hstep.symm.trans hstep'
        rw [hfresh.piecesFrom_eq] at hfound
        exact ⟨[], s, .nil s, hdone, .inr ⟨t, found, rfl, rfl, hfound⟩⟩
      | false =>
        obtain ⟨piece, mid, hpass, hdone, hshape⟩ := ih hfound
        refine ⟨c :: piece, mid, .cons hcut hstep hpass, hdone, ?_⟩
        rcases hshape with ⟨rfl, rfl⟩ | ⟨rest, more, rfl, rfl, hmore⟩
        · exact .inl ⟨rfl, rfl⟩
        · exact .inr ⟨rest, more, rfl, rfl, hmore⟩

/-- What a text starts with, up to the first separator at least, is in its first piece. -/
theorem prefix_first_piece (hsep : IsSeparator separator) {front rest piece : Text}
    {more : List Text} (hfront : separator ∉ front)
    (h : splitTopLevel separator (front ++ rest) = some (piece :: more)) : front <+: piece := by
  obtain ⟨first, -, -, -, hshape⟩ := exists_first_piece hsep h
  rcases hshape with ⟨heq, hpieces⟩ | ⟨behind, others, heq, hpieces, -⟩
  · cases hpieces
    exact ⟨rest, heq⟩
  · cases hpieces
    rcases List.append_eq_append_iff.mp heq with ⟨more, rfl, -⟩ | ⟨more, rfl, hcut⟩
    · exact List.prefix_append front more
    · cases more with
      | nil => simp
      | cons c more =>
        cases hcut
        exact absurd (by simp) hfront

/-- The pieces of a split are whole and no longer than the text. -/
theorem isWhole_of_mem_splitTopLevel (hsep : IsSeparator separator) {pieces : List Text} {t : Text}
    (h : splitTopLevel separator t = some pieces) :
    ∀ piece ∈ pieces, IsWhole separator piece ∧ piece.length ≤ t.length := by
  -- on the pieces, not on the text: each further piece is the first one of a shorter text
  induction pieces generalizing t with
  | nil => simp
  | cons piece more ih =>
    obtain ⟨first, mid, hpass, hdone, hshape⟩ := exists_first_piece hsep h
    have hfirst : IsWhole separator first := ⟨mid, hpass, hdone⟩
    rcases hshape with ⟨rfl, heq⟩ | ⟨rest, others, rfl, heq, hrest⟩
    · cases heq
      intro p hp
      cases List.mem_singleton.mp hp
      exact ⟨hfirst, Nat.le_refl _⟩
    · cases heq
      intro p hp
      rcases List.mem_cons.mp hp with rfl | hp
      · exact ⟨hfirst, by simp⟩
      · obtain ⟨hwhole, hlength⟩ := ih hrest p hp
        refine ⟨hwhole, ?_⟩
        rw [List.length_append, List.length_cons]
        omega

/-- A text that splitting leaves in one piece is whole. -/
theorem isWhole_iff_split (hsep : IsSeparator separator) {t : Text} :
    IsWhole separator t ↔ splitTopLevel separator t = some [t] := by
  constructor
  · exact IsWhole.split
  · intro h
    exact (isWhole_of_mem_splitTopLevel hsep h t List.mem_cons_self).1

end

end Expression

end ModelSchemas

import Mathlib.Data.List.DropRight
import ModelSchemas.Proofs.Text.Join
import ModelSchemas.Text.Blank
import ModelSchemas.Text.WordChar

/-!
# Trimmed text

What trimming leaves has no blanks at its ends, and text without them is left as it is. Word
characters are not blank, so that a text with names at its ends is trimmed.
-/

namespace ModelSchemas

namespace Text

/-! ## Ends -/

/-- Neither the first nor the last character is blank. -/
def HasInkAtEnds (t : Text) : Prop :=
  (∀ c, t.head? = some c → isBlank c = false) ∧ ∀ c, t.getLast? = some c → isBlank c = false

theorem trimStart_eq_self {t : Text} (h : ∀ c, t.head? = some c → isBlank c = false) :
    trimStart t = t := by
  cases t with
  | nil => rfl
  | cons c rest => exact List.dropWhile_cons_of_neg (by simp [h c rfl])

theorem trimEnd_eq_self {t : Text} (h : ∀ c, t.getLast? = some c → isBlank c = false) :
    trimEnd t = t := by
  refine List.rdropWhile_eq_self_iff.mpr fun hne => ?_
  simp [h _ (List.getLast?_eq_some_getLast hne)]

theorem HasInkAtEnds.trim_eq_self {t : Text} (h : t.HasInkAtEnds) : trim t = t := by
  rw [trim, trimStart_eq_self h.1, trimEnd_eq_self h.2]

theorem head?_trimStart {t : Text} {c : Char} (h : (trimStart t).head? = some c) :
    isBlank c = false := by
  have hhead := List.head?_dropWhile_not isBlank t
  rw [show t.dropWhile isBlank = trimStart t from rfl, h] at hhead
  exact hhead

/-- What trimming leaves has ink at its ends. -/
theorem hasInkAtEnds_trim (t : Text) : (trim t).HasInkAtEnds := by
  constructor
  · intro c hc
    -- trimming the end leaves the first character, unless it leaves nothing
    obtain ⟨rest, hrest⟩ : trim t <+: trimStart t := List.rdropWhile_prefix isBlank (trimStart t)
    refine head?_trimStart (t := t) ?_
    rw [← hrest, List.head?_append, hc]
    rfl
  · intro c hc
    have hne : (trimStart t).rdropWhile isBlank ≠ [] := by
      intro hnil
      rw [show trim t = [] from hnil] at hc
      cases hc
    have hlast := List.rdropWhile_last_not isBlank (trimStart t) hne
    have hc' := (List.getLast?_eq_some_getLast hne).symm.trans hc
    simpa [Option.some.inj hc'] using hlast

@[simp] theorem trim_trim (t : Text) : trim (trim t) = trim t := (hasInkAtEnds_trim t).trim_eq_self

theorem hasInkAtEnds_iff {t : Text} : t.HasInkAtEnds ↔ trim t = t := by
  constructor
  · exact HasInkAtEnds.trim_eq_self
  · intro h
    rw [← h]
    exact hasInkAtEnds_trim t

theorem hasInkAtEnds_of_all {t : Text} (h : ∀ c ∈ t, isBlank c = false) : t.HasInkAtEnds :=
  ⟨fun c hc => h c (List.mem_of_head? hc), fun c hc => h c (List.mem_of_getLast? hc)⟩

theorem HasInkAtEnds.append {t u : Text} (ht : t.HasInkAtEnds) (hu : u.HasInkAtEnds) :
    Text.HasInkAtEnds (t ++ u) := by
  constructor
  · intro c hc
    rw [List.head?_append, Option.or_eq_some_iff] at hc
    rcases hc with hc | ⟨-, hc⟩
    · exact ht.1 c hc
    · exact hu.1 c hc
  · intro c hc
    rw [List.getLast?_append, Option.or_eq_some_iff] at hc
    rcases hc with hc | ⟨-, hc⟩
    · exact hu.2 c hc
    · exact ht.2 c hc

theorem hasInkAtEnds_nil : HasInkAtEnds [] := hasInkAtEnds_of_all (by simp)

theorem hasInkAtEnds_singleton {c : Char} (h : isBlank c = false) : HasInkAtEnds [c] :=
  hasInkAtEnds_of_all (by simpa using h)

theorem hasInkAtEnds_intercalate {between : Text} (hbetween : between.HasInkAtEnds)
    {texts : List Text} (h : ∀ t ∈ texts, HasInkAtEnds t) :
    HasInkAtEnds (List.intercalate between texts) :=
  intercalate_of_append hasInkAtEnds_nil HasInkAtEnds.append hbetween h

/-- Between marks that are not blank any text may stand. -/
theorem hasInkAtEnds_enclosed {a b : Char} (ha : isBlank a = false) (hb : isBlank b = false)
    (t : Text) : Text.HasInkAtEnds (a :: t ++ [b]) := by
  constructor
  · intro c hc
    cases hc
    exact ha
  · intro c hc
    rw [List.getLast?_append] at hc
    cases hc
    exact hb

/-! ## Blanks -/

theorem trim_append_of_allBlank {blanks : Text} (h : allBlank blanks) (t : Text) :
    trim (blanks ++ t) = trim t := by
  unfold trim trimStart
  rw [List.dropWhile_append_of_pos (by simpa [allBlank] using h)]

theorem trim_append_blanks {blanks : Text} (h : allBlank blanks) (t : Text) :
    trim (t ++ blanks) = trim t := by
  have hreverse : ∀ c ∈ blanks.reverse, isBlank c :=
    fun c hc => List.all_eq_true.mp h c (List.mem_reverse.mp hc)
  have hend : ∀ u : Text, trimEnd (u ++ blanks) = trimEnd u := by
    intro u
    rw [trimEnd, List.reverse_append, List.dropWhile_append_of_pos hreverse, trimEnd]
  unfold trim trimStart
  rw [List.dropWhile_append]
  split_ifs with hnil
  · -- a blank text in front: nothing is left of either
    rw [List.isEmpty_iff.mp hnil, List.dropWhile_eq_nil_iff.mpr (List.all_eq_true.mp h)]
  · exact hend _

/-- What a text starts with stays when the text is trimmed, if no blank is at its own ends. -/
theorem prefix_trim {front : Text} (h : front.HasInkAtEnds) (hne : front ≠ []) {t : Text}
    (ht : front <+: t) : front <+: trim t := by
  obtain ⟨rest, rfl⟩ := ht
  have hstart : trimStart (front ++ rest) = front ++ rest := by
    refine trimStart_eq_self fun c hc => h.1 c ?_
    rwa [List.head?_append_of_ne_nil _ hne] at hc
  have hend : front.reverse.dropWhile isBlank = front.reverse := by
    have hback := trimEnd_eq_self h.2
    rw [trimEnd] at hback
    rw [← List.reverse_reverse (front.reverse.dropWhile isBlank), hback]
  rw [trim, hstart, trimEnd, List.reverse_append, List.dropWhile_append]
  split_ifs
  · simp [hend]
  · simp

/-- Trimming takes blanks away and nothing else. -/
theorem exists_eq_trim_between (t : Text) :
    ∃ before after, allBlank before ∧ allBlank after ∧ t = before ++ (trim t ++ after) := by
  refine ⟨leadingBlanks t, trailingBlanks (trimStart t), ?_, ?_, ?_⟩
  · exact List.all_takeWhile
  · rw [allBlank, trailingBlanks, List.all_reverse]
    exact List.all_takeWhile
  · rw [trim, trimEnd_append_trailingBlanks, leadingBlanks_append_trimStart]

theorem trim_eq_nil_iff {t : Text} : trim t = [] ↔ allBlank t := by
  constructor
  · intro h
    obtain ⟨before, after, hbefore, hafter, heq⟩ := exists_eq_trim_between t
    rw [heq, h, allBlank, List.nil_append, List.all_append]
    exact Bool.and_eq_true_iff.mpr ⟨hbefore, hafter⟩
  · intro h
    have := trim_append_of_allBlank h []
    rwa [List.append_nil] at this

theorem allBlank_trim (t : Text) : allBlank (trim t) = allBlank t := by
  rw [Bool.eq_iff_iff, ← trim_eq_nil_iff, trim_trim, trim_eq_nil_iff]

theorem HasInkAtEnds.allBlank {t : Text} (h : t.HasInkAtEnds) (hne : t ≠ []) :
    allBlank t = false := by
  rw [Bool.eq_false_iff]
  intro hblank
  have hnil := trim_eq_nil_iff.mpr hblank
  rw [h.trim_eq_self] at hnil
  exact hne hnil

/-- The word characters of ASCII, as ranges of code points. -/
def asciiWordRanges : List (Nat × Nat) := [(0x30, 0x39), (0x41, 0x5A), (0x5F, 0x5F), (0x61, 0x7A)]

theorem inRanges_iff {ranges : List (Nat × Nat)} {c : Char} :
    inRanges ranges c ↔ ∃ range ∈ ranges, range.1 ≤ c.toNat ∧ c.toNat ≤ range.2 := by
  simp [inRanges]

theorem toNat_of_isAlphanum {c : Char} (h : c.isAlphanum) :
    (65 ≤ c.toNat ∧ c.toNat ≤ 90) ∨ (97 ≤ c.toNat ∧ c.toNat ≤ 122) ∨
      (48 ≤ c.toNat ∧ c.toNat ≤ 57) := by
  rcases (Bool.or_eq_true _ _).mp h with h | h
  · rcases (Bool.or_eq_true _ _).mp h with h | h
    · left
      exact of_decide_eq_true h
    · right; left
      obtain ⟨hlower, hupper⟩ := (Bool.and_eq_true _ _).mp h
      exact ⟨of_decide_eq_true hlower, of_decide_eq_true hupper⟩
  · right; right
    exact Char.isDigit_iff_toNat.mp h

theorem inRanges_of_isWordChar {c : Char} (h : isWordChar c) :
    inRanges (asciiWordRanges ++ letterOrNumberRanges) c := by
  rw [inRanges, List.any_append, Bool.or_eq_true]
  simp only [isWordChar, isLetterOrNumber, Bool.or_eq_true, Bool.and_eq_true,
    decide_eq_true_eq] at h
  rcases h with rfl | h | ⟨-, h⟩
  · left
    decide
  · left
    have hrange := toNat_of_isAlphanum h
    simp only [asciiWordRanges, List.any_cons, List.any_nil, Bool.or_eq_true, Bool.and_eq_true,
      decide_eq_true_eq]
    omega
  · exact .inr h

/-- No blank range meets a range of word characters. -/
theorem ranges_disjoint : ∀ blank ∈ separatorRange :: whiteSpaceRanges,
    ∀ word ∈ asciiWordRanges ++ letterOrNumberRanges, blank.2 < word.1 ∨ word.2 < blank.1 := by
  decide +kernel

/-- A word holds no blank. -/
theorem isBlank_of_isWordChar {c : Char} (h : isWordChar c) : isBlank c = false := by
  rw [Bool.eq_false_iff]
  intro hblank
  -- one code point would lie in a range of each kind
  obtain ⟨word, hword, hword₁, hword₂⟩ := inRanges_iff.mp (inRanges_of_isWordChar h)
  obtain ⟨blank, hblank, hblank₁, hblank₂⟩ := inRanges_iff.mp hblank
  rcases ranges_disjoint blank hblank word hword with hlt | hlt
  · omega
  · omega

end Text

end ModelSchemas

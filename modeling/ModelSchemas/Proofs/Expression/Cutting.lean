import ModelSchemas.Proofs.Expression.Splitting
import ModelSchemas.Proofs.Expression.WellNested

/-!
# What is cut off

Reading cuts a text at separators and at the angle bracket that closes generic arguments. Splitting
at a separator and joining with it undo each other, and generic arguments stand between the brackets
that are cut off with them.
-/

namespace ModelSchemas

namespace Expression

open Scanner

/-! ## Separators -/

/-- The pieces, joined with the separator, are the text. -/
theorem intercalate_piecesFrom {separator : Char} {s : Scanner} {t : Text} {pieces : List Text}
    (h : piecesFrom separator s t = some pieces) : List.intercalate [separator] pieces = t := by
  induction t generalizing s pieces with
  | nil =>
    rw [piecesFrom] at h
    split_ifs at h
    cases h
    rfl
  | cons c rest ih =>
    rw [piecesFrom] at h
    split at h
    · cases h
    · rename_i next hstep
      obtain ⟨found, hfound, rfl⟩ := Option.map_eq_some_iff.mp h
      have hne := piecesFrom_ne_nil hfound
      split_ifs with hcut
      · obtain ⟨rfl, -⟩ := isDone_of_cuts hcut
        rw [Text.intercalate_nil_first _ hne, ih hfound]
        rfl
      · obtain ⟨first, others, rfl⟩ := List.exists_cons_of_ne_nil hne
        rw [consFirst, Text.intercalate_cons_first, ih hfound]

theorem intercalate_splitTopLevel {separator : Char} {t : Text} {pieces : List Text}
    (h : splitTopLevel separator t = some pieces) : List.intercalate [separator] pieces = t :=
  intercalate_piecesFrom h

/-! ## Splitting and joining -/

/-- In a text that opens no generic arguments the scanner follows the nesting alone. -/
theorem exists_after_of_run {t : Text} (ht : '<' ∉ t) {n last : Nesting}
    (h : n.run t = some last) (previous : Option Char) :
    ∃ previous', (⟨n, 0, previous⟩ : Scanner).after t = some ⟨last, 0, previous'⟩ := by
  induction t generalizing n previous with
  | nil =>
    cases h
    exact ⟨previous, rfl⟩
  | cons c rest ih =>
    obtain ⟨hc, hrest⟩ := List.ne_and_not_mem_of_not_mem_cons ht
    obtain ⟨next, hstep, hrun⟩ := Nesting.run_cons_eq_some.mp h
    have hscan : (⟨n, 0, previous⟩ : Scanner).step c = some ⟨next, 0, some c⟩ := by
      simp [step, hstep, opensAngle, closesAngle, Ne.symm hc]
    obtain ⟨previous', hafter⟩ := ih hrest hrun (some c)
    exact ⟨previous', by rw [after, hscan, Option.bind_some, hafter]⟩

/-- A text that opens no generic arguments has pieces exactly if it is well nested. -/
theorem isSome_splitTopLevel_iff {separator : Char} {t : Text} (ht : '<' ∉ t) :
    (splitTopLevel separator t).isSome ↔ WellNested t := by
  rw [wellNested_iff_isBalanced, Option.isSome_iff_exists]
  constructor
  · rintro ⟨pieces, hpieces⟩
    obtain ⟨last, hafter, hdone⟩ := exists_after_of_pieces hpieces
    exact (run_of_after hafter).trans (congrArg some (isDone_iff.mp hdone).1)
  · intro h
    obtain ⟨previous, hafter⟩ := exists_after_of_run ht h none
    exact exists_pieces_of_after hafter rfl

/-- **Splitting undoes joining.** The pieces of a text are the only list of pieces, each of which
stays in one piece when it is split, that makes up the text when joined with the separator. A text
that opens no generic arguments has pieces if it is well nested, and only then. -/
theorem splitting_undoes_joining {separator : Char} (h : separator ∈ separators) (t : Text) :
    (∀ pieces, splitTopLevel separator t = some pieces ↔
      pieces ≠ [] ∧ (∀ piece ∈ pieces, splitTopLevel separator piece = some [piece]) ∧
        List.intercalate [separator] pieces = t) ∧
    ('<' ∉ t → ((splitTopLevel separator t).isSome ↔ WellNested t)) := by
  have hsep : IsSeparator separator := isSeparator_of_mem h
  refine ⟨fun pieces => ⟨fun hsplit => ?_, ?_⟩, isSome_splitTopLevel_iff⟩
  · have hwhole := isWhole_of_mem_splitTopLevel hsep hsplit
    exact ⟨piecesFrom_ne_nil hsplit, fun piece hpiece => (hwhole piece hpiece).1.split,
      intercalate_splitTopLevel hsplit⟩
  · rintro ⟨hne, hall, rfl⟩
    exact splitTopLevel_intercalate hsep hne fun piece hpiece =>
      (isWhole_iff_split hsep).mpr (hall piece hpiece)

/-- Arguments with brackets, generic arguments and a quoted comma among them. -/
theorem arguments_joined_again :
    let pieces : List Text := ["f(a, b)", " g<c, d>(e)", " 'x, \\', y'", ""]
    ',' ∈ separators ∧
      splitTopLevel ',' "f(a, b), g<c, d>(e), 'x, \\', y'," = some pieces ∧
      pieces ≠ [] ∧ (∀ piece ∈ pieces, splitTopLevel ',' piece = some [piece]) ∧
        List.intercalate [','] pieces = "f(a, b), g<c, d>(e), 'x, \\', y',".toList := by
  intro pieces
  have hmem : ',' ∈ separators := by decide
  have hsplit : splitTopLevel ',' "f(a, b), g<c, d>(e), 'x, \\', y'," = some pieces := by
    decide +kernel
  exact ⟨hmem, hsplit, ((splitting_undoes_joining hmem _).1 pieces).mp hsplit⟩

/-! ## Angle brackets -/

theorem getElem?_of_angleOffset {depth : Int} {previous : Option Char} {t : Text} {offset : Nat}
    (h : angleOffset depth previous t = some offset) : t[offset]? = some '>' := by
  induction t generalizing depth previous offset with
  | nil => cases h
  | cons c rest ih =>
    have hbehind : ∀ {depth : Int}, (angleOffset depth (some c) rest).map (· + 1) = some offset →
        (c :: rest)[offset]? = some '>' := by
      intro depth hmap
      obtain ⟨behind, hbehind, rfl⟩ := Option.map_eq_some_iff.mp hmap
      exact ih hbehind
    rw [angleOffset] at h
    split_ifs at h with hless hgreater hdepth
    · exact hbehind h
    · cases h
      simp only [Bool.and_eq_true, decide_eq_true_eq] at hgreater
      rw [hgreater.1]
      rfl
    · exact hbehind h
    · exact hbehind h

/-- Generic arguments stand between their angle brackets. -/
theorem eq_of_matchingAngle {rest : Text} {close : Nat}
    (h : matchingAngle ('<' :: rest) = some close) :
    ('<' :: rest) = '<' :: ((('<' :: rest).take close).drop 1 ++
      '>' :: ('<' :: rest).drop (close + 1)) := by
  have hclose := getElem?_of_angleOffset h
  cases close with
  | zero => cases hclose
  | succ close =>
    obtain ⟨hlt, hget⟩ := List.getElem?_eq_some_iff.mp hclose
    have hcons : '>' :: ('<' :: rest).drop (close + 1 + 1) = ('<' :: rest).drop (close + 1) := by
      rw [← hget]
      exact (List.drop_eq_getElem_cons hlt).symm
    rw [hcons, List.take_succ_cons, List.drop_succ_cons, List.drop_zero, List.drop_succ_cons,
      List.take_append_drop]

end Expression

end ModelSchemas

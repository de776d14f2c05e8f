import Mathlib.Tactic.SplitIfs
import ModelSchemas.Validation.Record

/-!
# Accepted values

What follows from a check having accepted a value: each check that it is made of has accepted its
part. What every accepted part has in common then holds of the whole.
-/

namespace ModelSchemas

open Document

namespace Checked

variable {α β γ : Type}

/-- A value that a check hands out is one that it accepts. -/
theorem eq_accepted_of_value? {c : Checked α} {a : α} (h : c.value? = some a) :
    c = .accepted a := by
  cases c with
  | accepted b => exact congrArg _ (Option.some.inj h)
  | rejected issues => cases h

/-- Two checked values are accepted together only if each of them is. -/
theorem and_eq_accepted {f : α → β → γ} {a : Checked α} {b : Checked β} {c : γ}
    (h : Checked.and f a b = .accepted c) :
    ∃ x y, a = .accepted x ∧ b = .accepted y ∧ f x y = c := by
  cases a with
  | accepted x =>
    cases b with
    | accepted y =>
      cases h
      exact ⟨x, y, rfl, rfl, rfl⟩
    | rejected issues => cases h
  | rejected issues =>
    cases b with
    | accepted y => cases h
    | rejected more => cases h

theorem seq_eq_accepted {f : Checked (α → β)} {a : Checked α} {b : β}
    (h : f <*> a = .accepted b) : ∃ g x, f = .accepted g ∧ a = .accepted x ∧ g x = b :=
  and_eq_accepted h

theorem under_eq_accepted {place : Place} {a : Checked α} {x : α}
    (h : a.under place = .accepted x) : a = .accepted x := by
  cases a with
  | accepted y => exact h
  | rejected issues => cases h

theorem map_eq_accepted {f : α → β} {a : Checked α} {b : β} (h : a.map f = .accepted b) :
    ∃ x, a = .accepted x ∧ f x = b := by
  cases a with
  | accepted x =>
    cases h
    exact ⟨x, rfl, rfl⟩
  | rejected issues => cases h

theorem andThen_eq_accepted {a : Checked α} {check : α → Checked β} {b : β} :
    a.andThen check = .accepted b ↔ ∃ x, a = .accepted x ∧ check x = .accepted b := by
  cases a with
  | accepted x =>
    constructor
    · exact fun h => ⟨x, rfl, h⟩
    · rintro ⟨_, hx, h⟩
      cases hx
      exact h
  | rejected issues =>
    constructor
    · exact fun h => nomatch h
    · rintro ⟨_, h, -⟩
      exact nomatch h

end Checked

namespace Decoder

variable {α : Type} {decode : Decoder α}

/-- Each item of an accepted list has been accepted. -/
theorem exists_of_mem_itemsFrom {items : List Value} {position : Nat} {xs : List α}
    (h : itemsFrom decode position items = .accepted xs) {x : α} (hx : x ∈ xs) :
    ∃ v, decode v = .accepted x := by
  induction items generalizing position xs with
  | nil =>
    cases h
    exact absurd hx List.not_mem_nil
  | cons item rest ih =>
    obtain ⟨first, others, hfirst, hothers, rfl⟩ := Checked.and_eq_accepted h
    rcases List.mem_cons.mp hx with rfl | hx
    · exact ⟨item, Checked.under_eq_accepted hfirst⟩
    · exact ih hothers hx

theorem exists_of_mem_list {v : Value} {xs : List α} (h : list decode v = .accepted xs) {x : α}
    (hx : x ∈ xs) : ∃ item, decode item = .accepted x := by
  cases v with
  | list items => exact exists_of_mem_itemsFrom h hx
  | _ => cases h

theorem eq_of_orNull {v : Value} {x : α} (h : orNull decode v = .accepted (some x)) :
    decode v = .accepted x := by
  unfold orNull at h
  split at h
  · cases h
  · obtain ⟨y, hy, heq⟩ := Checked.map_eq_accepted h
    cases heq
    exact hy

/-- An accepted list that must not be empty is not. -/
theorem ne_nil_of_nonEmptyList {v : Value} {xs : List α}
    (h : nonEmptyList decode v = .accepted xs) : xs ≠ [] := by
  obtain ⟨items, -, hitems⟩ := Checked.andThen_eq_accepted.mp h
  rintro rfl
  split_ifs at hitems with hempty
  · cases hitems
  · cases hitems
    exact hempty rfl

end Decoder

/-! ## Properties of records -/

namespace Record

variable {α : Type} {P : α → Prop} {entries : Entries} {spellings : List String}
  {decode : Decoder α} {x : α}

/-- A property of all that the check accepts holds of what is required. -/
theorem of_required (hdecode : ∀ v x, decode v = .accepted x → P x)
    (h : required entries spellings decode = .accepted x) : P x := by
  unfold required at h
  split at h
  · exact hdecode _ x (Checked.under_eq_accepted h)
  · cases h

/-- A property that holds of the default and of all that the check accepts holds of what is read. -/
theorem of_withDefault {absent : α} (habsent : P absent)
    (hdecode : ∀ v x, decode v = .accepted x → P x)
    (h : withDefault entries spellings absent decode = .accepted x) : P x := by
  unfold withDefault at h
  split at h
  · exact hdecode _ x (Checked.under_eq_accepted h)
  · cases h
    exact habsent

end Record

end ModelSchemas

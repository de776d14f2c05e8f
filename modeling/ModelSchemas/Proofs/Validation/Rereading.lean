import ModelSchemas.Proofs.Validation.Accepted

/-!
# Reading what was written

A checked value can be written back as a document. A decoder rereads when it accepts everything that
is written of what it accepts, and reads the same value there, up to details that it settles: what
comes in several spellings is written in one. The combinators for decoders keep this property.
-/

namespace ModelSchemas

open Document

/-- What the decoder accepts is accepted again as `write` writes it, and read as `settle` says. -/
def Decoder.Rereads {α : Type} (decode : Decoder α) (write : α → Value) (settle : α → α) : Prop :=
  ∀ v x, decode v = .accepted x → decode (write x) = .accepted (settle x)

namespace Decoder

variable {α : Type} {decode : Decoder α} {write : α → Value} {settle : α → α}

/-! ## Scalars -/

theorem rereads_string : Rereads string .str id := fun _ _ _ => rfl

theorem rereads_nonEmptyString : Rereads nonEmptyString .str id := by
  intro v s h
  cases v with
  | str given =>
    rw [nonEmptyString] at h
    split_ifs at h with hempty
    · cases h
    · cases h
      exact if_neg hempty
  | _ => cases h

theorem rereads_bool : Rereads bool .bool id := fun _ _ _ => rfl

theorem rereads_intBetween (low high : Int) : Rereads (intBetween low high) .int id := by
  intro v n h
  obtain ⟨given, -, hbounds⟩ := Checked.andThen_eq_accepted.mp h
  refine Checked.andThen_eq_accepted.mpr ⟨n, rfl, ?_⟩
  split_ifs at hbounds with hlow hhigh
  · cases hbounds
  · cases hbounds
  · cases hbounds
    rw [if_neg hlow, if_neg hhigh]
    rfl

/-! ## Lists and null -/

theorem itemsFrom_map {xs : List α} (h : ∀ x ∈ xs, decode (write x) = .accepted (settle x))
    (position : Nat) :
    itemsFrom decode position (xs.map write) = .accepted (xs.map settle) := by
  induction xs generalizing position with
  | nil => rfl
  | cons x rest ih =>
    rw [List.map_cons, itemsFrom, h x List.mem_cons_self,
      ih (fun y hy => h y (List.mem_cons_of_mem x hy))]
    rfl

/-- The written form of a list. -/
def writeList (write : α → Value) (xs : List α) : Value := .list (xs.map write)

/-- What is settled in the items does not show in a list if it does not show in an item. -/
theorem writeList_map (h : ∀ x, write (settle x) = write x) (xs : List α) :
    writeList write (xs.map settle) = writeList write xs := by
  rw [writeList, writeList, List.map_map]
  exact congrArg Value.list (List.map_congr_left fun x _ => h x)

theorem Rereads.list (h : decode.Rereads write settle) :
    (Decoder.list decode).Rereads (writeList write) (List.map settle) := by
  intro v xs hxs
  refine itemsFrom_map (fun x hx => ?_) 0
  obtain ⟨item, hitem⟩ := exists_of_mem_list hxs hx
  exact h item x hitem

theorem Rereads.nonEmptyList (h : decode.Rereads write settle) :
    (Decoder.nonEmptyList decode).Rereads (writeList write) (List.map settle) := by
  intro v xs hxs
  have hne : xs ≠ [] := ne_nil_of_nonEmptyList hxs
  obtain ⟨items, hitems, hread⟩ := Checked.andThen_eq_accepted.mp hxs
  split_ifs at hread
  · cases hread
  · cases hread
    refine Checked.andThen_eq_accepted.mpr ⟨_, h.list v xs hitems, if_neg ?_⟩
    simpa using hne

/-- The written form of a value that may be missing. -/
def writeOption (write : α → Value) (x? : Option α) : Value := (x?.map write).getD .null

theorem orNull_of_ne_null {v : Value} (h : v ≠ .null) : orNull decode v = (decode v).map some := by
  cases v with
  | null => exact absurd rfl h
  | _ => rfl

/-- A value that is never written as null may be missing. -/
theorem Rereads.orNull (h : decode.Rereads write settle) (hwrite : ∀ x, write x ≠ .null) :
    (Decoder.orNull decode).Rereads (writeOption write) (Option.map settle) := by
  intro v x? hx
  cases x? with
  | none => rfl
  | some x =>
    show Decoder.orNull decode (write x) = _
    rw [orNull_of_ne_null (hwrite x), h v x (eq_of_orNull hx)]
    rfl

theorem list_texts (texts : List String) :
    list string (writeList .str texts) = .accepted texts := by
  have hitem : ∀ text ∈ texts, string (.str text) = .accepted (id text) := fun _ _ => rfl
  have h : itemsFrom string 0 (texts.map .str) = .accepted (texts.map id) := itemsFrom_map hitem 0
  rwa [List.map_id] at h

theorem rereads_nonEmptyTexts : Rereads (Decoder.nonEmptyList string) (writeList .str) id := by
  have h := rereads_string.nonEmptyList
  rwa [List.map_id_fun] at h

theorem rereads_textOrNull : Rereads (Decoder.orNull string) (writeOption .str) id := by
  have h := rereads_string.orNull fun _ => Value.noConfusion
  rwa [Option.map_id] at h

end Decoder

/-! ## Properties of records -/

namespace Record

variable {α : Type} {decode : Decoder α} {write : α → Value} {settle : α → α}
  {entries written : Entries} {spellings : List String} {spelling : String} {x : α}

theorem required_reread (h : decode.Rereads write settle)
    (hx : required entries spellings decode = .accepted x)
    (hwritten : find? written spellings = some (spelling, write x)) :
    required written spellings decode = .accepted (settle x) := by
  have hread : decode (write x) = .accepted (settle x) :=
    of_required (P := fun x => decode (write x) = .accepted (settle x)) h hx
  rw [required, hwritten]
  simp only [hread]
  rfl

/-- A default is read back if it is read back when it is written. -/
theorem withDefault_reread {absent : α} (h : decode.Rereads write settle)
    (habsent : decode (write absent) = .accepted (settle absent))
    (hx : withDefault entries spellings absent decode = .accepted x)
    (hwritten : find? written spellings = some (spelling, write x)) :
    withDefault written spellings absent decode = .accepted (settle x) := by
  have hread : decode (write x) = .accepted (settle x) :=
    of_withDefault (P := fun x => decode (write x) = .accepted (settle x)) habsent h hx
  rw [withDefault, hwritten]
  simp only [hread]
  rfl

end Record

end ModelSchemas

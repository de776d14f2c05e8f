import ModelSchemas.Model.DataModel

/-!
# Rejections

Every check that rejects an input names at least one issue. The combinators for checks keep this
property, so each check has it as soon as those that it is put together from do.
-/

namespace ModelSchemas

open Document

namespace Checked

variable {α β γ : Type}

/-- Accepted, or rejected for a reason. -/
def Explained : Checked α → Prop
  | accepted _ => True
  | rejected issues => issues ≠ []

theorem Explained.ne_nil {a : Checked α} (h : a.Explained) {issues : List Issue}
    (ha : a = .rejected issues) : issues ≠ [] := by
  subst ha
  exact h

theorem explained_accepted (a : α) : (accepted a).Explained := trivial

theorem explained_reject (problem : Problem) : (reject problem : Checked α).Explained :=
  List.cons_ne_nil _ _

theorem Explained.ite {c : Prop} [Decidable c] {a b : Checked α} (ha : a.Explained)
    (hb : b.Explained) : (if c then a else b).Explained := by
  split
  · exact ha
  · exact hb

theorem Explained.map {a : Checked α} (ha : a.Explained) (f : α → β) : (a.map f).Explained := by
  cases a with
  | accepted x => trivial
  | rejected issues => exact ha

theorem Explained.and {f : α → β → γ} {a : Checked α} {b : Checked β} (ha : a.Explained)
    (hb : b.Explained) : (Checked.and f a b).Explained := by
  cases a with
  | accepted x =>
    cases b with
    | accepted y => trivial
    | rejected issues => exact hb
  | rejected issues =>
    cases b with
    | accepted y => exact ha
    | rejected more => exact List.append_ne_nil_of_left_ne_nil ha more

theorem Explained.seq {f : Checked (α → β)} {a : Checked α} (hf : f.Explained)
    (ha : a.Explained) : (f <*> a).Explained := hf.and ha

theorem Explained.fmap {a : Checked α} (ha : a.Explained) (f : α → β) : (f <$> a).Explained :=
  Explained.seq (explained_accepted f) ha

theorem Explained.andThen {a : Checked α} (ha : a.Explained) {check : α → Checked β}
    (hcheck : ∀ x, (check x).Explained) : (a.andThen check).Explained := by
  cases a with
  | accepted x => exact hcheck x
  | rejected issues => exact ha

theorem Explained.under {a : Checked α} (ha : a.Explained) (place : Place) :
    (a.under place).Explained := by
  cases a with
  | accepted x => trivial
  | rejected issues =>
    intro hnil
    exact ha (List.map_eq_nil_iff.mp hnil)

end Checked

open Checked

/-- A decoder that names a reason for whatever it rejects. -/
def Decoder.Explains {α : Type} (decode : Decoder α) : Prop := ∀ v, (decode v).Explained

/-! ## Scalars, lists and records -/

namespace Decoder

variable {α : Type} {decode : Decoder α}

theorem explains_string : Explains string := by
  intro v
  cases v with
  | str s => trivial
  | _ => exact explained_reject _

theorem explains_nonEmptyString : Explains nonEmptyString := by
  intro v
  cases v with
  | str s => exact (explained_reject _).ite trivial
  | _ => exact explained_reject _

theorem Explains.orNull (h : decode.Explains) : (Decoder.orNull decode).Explains := by
  intro v
  cases v with
  | null => trivial
  | _ => exact (h _).map some

theorem explains_bool : Explains bool := by
  intro v
  cases v with
  | bool b => trivial
  | str s => exact .ite trivial (.ite trivial (explained_reject _))
  | int n => exact .ite trivial (.ite trivial (.ite (explained_reject _) (explained_reject _)))
  | float x => exact .ite trivial (.ite trivial (explained_reject _))
  | _ => exact explained_reject _

theorem Explains.itemsFrom (h : decode.Explains) (position : Nat) (items : List Value) :
    (Decoder.itemsFrom decode position items).Explained := by
  induction items generalizing position with
  | nil => trivial
  | cons item rest ih => exact ((h item).under _).and (ih _)

theorem Explains.list (h : decode.Explains) : (Decoder.list decode).Explains := by
  intro v
  cases v with
  | list items => exact h.itemsFrom 0 items
  | _ => exact explained_reject _

theorem Explains.nonEmptyList (h : decode.Explains) : (Decoder.nonEmptyList decode).Explains :=
  fun v => (h.list v).andThen fun _ => (explained_reject _).ite trivial

/-- A property that must be present. -/
theorem Explains.required (h : decode.Explains) (entries : Entries) (spellings : List String) :
    (Record.required entries spellings decode).Explained := by
  unfold Record.required
  split
  · exact (h _).under _
  · exact List.cons_ne_nil _ _

/-- A property with a value of its own. -/
theorem Explains.withDefault (h : decode.Explains) (entries : Entries) (spellings : List String)
    (absent : α) : (Record.withDefault entries spellings absent decode).Explained := by
  unfold Record.withDefault
  split
  · exact (h _).under _
  · trivial

theorem explains_ofMapping (name : String) {read : Entries → Checked α}
    (h : ∀ entries, (read entries).Explained) : Explains (Record.ofMapping name read) := by
  intro v
  cases v with
  | mapping entries => exact h entries
  | _ => exact explained_reject _

end Decoder

/-! ## The parts of a data model -/

open Decoder

theorem explained_assignUnknown {α : Type} (name : String) :
    (assignUnknown name : Checked α).Explained := List.cons_ne_nil _ _

theorem FieldKind.explains_decode : Explains FieldKind.decode := by
  intro v
  cases v with
  | str s =>
    unfold FieldKind.decode
    dsimp only
    split
    · trivial
    · exact explained_reject _
  | _ => exact explained_reject _

theorem Field.explains_decodeCarriers : Explains Field.decodeCarriers := by
  intro v
  unfold Field.decodeCarriers
  split
  · trivial
  · exact explains_string.list _

theorem Field.explains_decode : Explains Field.decode := by
  refine explains_ofMapping _ fun entries => ?_
  have hflag (spellings : List String) (absent : Bool) :=
    explains_bool.withDefault entries spellings absent
  have hcarriers (spellings : List String) :=
    Field.explains_decodeCarriers.withDefault entries spellings []
  have htext (spellings : List String) :=
    explains_string.orNull.withDefault entries spellings none
  have hkind : Explains fun v => (FieldKind.decode v).map some :=
    fun v => (FieldKind.explains_decode v).map some
  refine .seq (.seq (.seq (.seq (.seq (.seq (.seq (.seq (.seq (.seq (.seq (.fmap ?_ _) ?_) ?_) ?_)
    ?_) ?_) ?_) ?_) ?_) ?_) ?_) ?_
  · exact explains_nonEmptyString.required entries _
  · exact hkind.withDefault entries _ _
  · exact explains_nonEmptyString.required entries _
  · exact hflag _ _
  · exact hflag _ _
  · exact hflag _ _
  · exact hflag _ _
  · exact hflag _ _
  · exact htext _
  · exact hcarriers _
  · exact hcarriers _
  · exact htext _

theorem KeyGroup.explains_decode (model : String) : Explains (KeyGroup.decode model) :=
  explains_ofMapping _ fun entries =>
    .seq (.fmap (explains_string.orNull.withDefault entries _ _) _)
      (explains_string.nonEmptyList.required entries _)

theorem Enumeration.explained_valueName (v : Value) : (Enumeration.valueName v).Explained := by
  cases v with
  | mapping entries =>
    unfold Enumeration.valueName
    dsimp only
    split
    · trivial
    · exact explained_reject _
  | _ => trivial

theorem Enumeration.explained_valueNames (items : List Value) :
    (Enumeration.valueNames items).Explained := by
  induction items with
  | nil => trivial
  | cons item rest ih => exact (explained_valueName item).andThen fun name => ih.map _

theorem Enumeration.explains_decodeValues : Explains Enumeration.decodeValues := by
  intro v
  cases v with
  | list items => exact (explained_valueNames items).andThen fun names => explains_string.list _
  | _ => exact explained_reject _

theorem Enumeration.explains_decode : Explains Enumeration.decode :=
  explains_ofMapping _ fun entries =>
    .seq (.fmap (explains_nonEmptyString.required entries _) _)
      (explains_decodeValues.withDefault entries _ _)

/-! ## Entities and data models -/

namespace Entity

theorem explained_reindex (e : Entity) : e.reindex.Explained := by
  unfold reindex
  split
  · trivial
  · exact explained_reject _

theorem explained_adoptUniqueFields (entries : Entries) :
    (adoptUniqueFields entries).Explained := by
  unfold adoptUniqueFields
  refine .ite trivial ?_
  split
  · trivial
  · trivial
  · exact explained_reject _

theorem explained_decodeProperties (entries : Entries) :
    (decodeProperties entries).Explained := by
  refine .seq (.seq (.seq (.seq (.fmap ?_ _) ?_) ?_) ?_) ?_
  · exact explains_nonEmptyString.required entries _
  · exact Field.explains_decode.list.withDefault entries _ _
  · exact (KeyGroup.explains_decode _).orNull.withDefault entries _ _
  · exact (KeyGroup.explains_decode _).list.withDefault entries _ _
  · exact explains_string.orNull.withDefault entries _ _

theorem explains_decode : Explains Entity.decode :=
  explains_ofMapping _ fun entries =>
    ((explained_adoptUniqueFields entries).andThen explained_decodeProperties).andThen
      explained_reindex

/-- An assignment is rejected for a reason. -/
theorem explained_setAttribute (e : Entity) (name : String) (v : Value) :
    (e.setAttribute name v).Explained := by
  unfold setAttribute
  split
  · exact ((explains_nonEmptyString v).map _).under _
  · exact ((Field.explains_decode.list v).map _).under _
  · exact (((KeyGroup.explains_decode _).orNull v).map _).under _
  · exact (((KeyGroup.explains_decode _).list v).map _).under _
  · exact ((explains_string.orNull v).map _).under _
  · exact explained_assignUnknown _

end Entity

namespace DataModel

theorem explained_reindex (m : DataModel) : m.reindex.Explained := by
  unfold reindex
  split
  · exact explained_reject _
  · split
    · exact explained_reject _
    · trivial

/-- An assignment is rejected for a reason. -/
theorem explained_setAttribute (m : DataModel) (name : String) (v : Value) :
    (m.setAttribute name v).Explained := by
  unfold setAttribute
  split
  · exact ((Enumeration.explains_decode.list v).map _).under _
  · exact ((Entity.explains_decode.list v).map _).under _
  · exact explained_assignUnknown _

/-- **Rejections are explained**: a data model that is not accepted has at least one issue. -/
theorem explains_decode : Explains DataModel.decode :=
  explains_ofMapping _ fun entries =>
    ((Enumeration.explains_decode.list.withDefault entries _ _).and
      (Entity.explains_decode.list.withDefault entries _ _)).andThen explained_reindex

end DataModel

end ModelSchemas

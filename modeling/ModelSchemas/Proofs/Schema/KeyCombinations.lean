import Mathlib.Data.Finset.Card
import ModelSchemas.Proofs.Model.AcceptedEntities
import ModelSchemas.Schema.UniqueKeys

/-!
# Combinations of unique fields

Which combinations of fields identify a row of an entity can be read off its declarations: of the
declared keys those stay whose names are all known, and of keys with the same set of names only the
first. The search that keeps a record of the sets met so far finds exactly these.
-/

namespace ModelSchemas

namespace Schema

open Document

/-! ## The combinations that are declared -/

/-- The names that are declared to identify a row, in order: those of each id or unique field on its
own, of each unique group, of the primary key, and of all id and unique fields together if there are
several. -/
def declaredKeys (e : Entity) : List (List String) :=
  let singles := (e.fields.filter fun f => f.isId || f.isUnique).map Field.name
  singles.map (fun name => [name]) ++ e.uniqueIndexes.map KeyGroup.fields ++
    e.primaryKey.toList.map KeyGroup.fields ++ (if 2 ≤ singles.length then [singles] else [])

/-- Whether the entity has a field for each of the names. -/
def IsKnown (e : Entity) (names : List String) : Prop :=
  ∀ name ∈ names, name ∈ e.fields.map Field.name

instance (e : Entity) (names : List String) : Decidable (IsKnown e names) :=
  inferInstanceAs (Decidable (∀ name ∈ names, _))

/-- The declared keys that name fields of the entity only. -/
def validKeys (e : Entity) : List (List String) := (declaredKeys e).filter (IsKnown e ·)

/-- Of keys with the same set of names only the first. -/
def firstOfEachSet : List (List String) → List (List String)
  | [] => []
  | names :: rest =>
    names :: (firstOfEachSet rest).filter fun other => other.toFinset ≠ names.toFinset

/-- The declared field of a name. -/
def fieldCalled (e : Entity) (name : String) : Option Field := e.fields.find? fun f => f.name = name

/-- The fields for the distinct names, in the order of first occurrence. -/
def fieldsNamed (e : Entity) (names : List String) : List Field :=
  (Names.distinct names).filterMap (fieldCalled e)

theorem declaredKeys_eq (e : Entity) :
    declaredKeys e = (keyCandidates e).map KeyCandidate.names := by
  have hcombined : (if 1 < (singleKeyNames e).length then
      [(⟨.combined, singleKeyNames e⟩ : KeyCandidate)] else []).map KeyCandidate.names =
        if 2 ≤ (singleKeyNames e).length then [singleKeyNames e] else [] := by
    by_cases hseveral : 1 < (singleKeyNames e).length
    · rw [if_pos hseveral, if_pos (Nat.succ_le_of_lt hseveral)]
      rfl
    · rw [if_neg hseveral, if_neg fun h => hseveral (Nat.lt_of_succ_le h)]
      rfl
  unfold keyCandidates
  rw [List.map_append, List.map_append, List.map_append, hcombined, List.map_map, List.map_map,
    List.map_map]
  rfl

/-! ## Sets of names -/

theorem toFinset_distinct (names : List String) :
    (Names.distinct names).toFinset = names.toFinset := by
  ext name
  rw [List.mem_toFinset, List.mem_toFinset, Names.mem_distinct]

theorem sameNames_iff {a b : List String} : sameNames a b ↔ a.toFinset = b.toFinset := by
  simp only [sameNames, Bool.and_eq_true, List.all_eq_true, List.contains_iff_mem]
  rw [Finset.ext_iff]
  simp only [List.mem_toFinset]
  exact ⟨fun h name => ⟨h.1 name, h.2 name⟩, fun h => ⟨fun name => (h name).mp,
    fun name => (h name).mpr⟩⟩

theorem firstOfEachSet_sublist (keys : List (List String)) :
    (firstOfEachSet keys).Sublist keys := by
  induction keys with
  | nil => exact .refl _
  | cons names rest ih => exact (List.filter_sublist.trans ih).cons_cons names

/-- No set of names stays twice. -/
theorem pairwise_firstOfEachSet (keys : List (List String)) :
    (firstOfEachSet keys).Pairwise fun a b => a.toFinset ≠ b.toFinset := by
  induction keys with
  | nil => exact .nil
  | cons names rest ih =>
    refine List.pairwise_cons.mpr ⟨fun other hother => ?_, ih.sublist List.filter_sublist⟩
    exact Ne.symm (by simpa using (List.mem_filter.mp hother).2)

/-- Every set of names stays. -/
theorem exists_mem_firstOfEachSet {keys : List (List String)} {names : List String}
    (h : names ∈ keys) : ∃ kept ∈ firstOfEachSet keys, kept.toFinset = names.toFinset := by
  induction keys with
  | nil => cases h
  | cons first rest ih =>
    by_cases hfirst : first.toFinset = names.toFinset
    · exact ⟨first, List.mem_cons_self, hfirst⟩
    · have hrest : names ∈ rest := by
        rcases List.mem_cons.mp h with rfl | hrest
        · exact absurd rfl hfirst
        · exact hrest
      obtain ⟨kept, hkept, heq⟩ := ih hrest
      refine ⟨kept, List.mem_cons_of_mem first (List.mem_filter.mpr ⟨hkept, ?_⟩), heq⟩
      simpa [heq] using Ne.symm hfirst

/-- Where all sets differ, all stay. -/
theorem firstOfEachSet_eq_self {keys : List (List String)}
    (h : keys.Pairwise fun a b => a.toFinset ≠ b.toFinset) : firstOfEachSet keys = keys := by
  induction keys with
  | nil => rfl
  | cons names rest ih =>
    obtain ⟨hfirst, hrest⟩ := List.pairwise_cons.mp h
    rw [firstOfEachSet, ih hrest, List.filter_eq_self.mpr]
    exact fun other hother => by simpa using (hfirst other hother).symm

/-! ## Fields by name -/

theorem name_fieldCalled {e : Entity} {name : String} {f : Field}
    (h : fieldCalled e name = some f) : f.name = name := by
  simpa using List.find?_some h

theorem isSome_fieldCalled {e : Entity} {name : String} :
    (fieldCalled e name).isSome ↔ name ∈ e.fields.map Field.name := by
  rw [fieldCalled, List.find?_isSome, List.mem_map]
  simp

/-- The fields of known names have these names. -/
theorem map_name_fieldsNamed {e : Entity} {names : List String} (h : IsKnown e names) :
    (fieldsNamed e names).map Field.name = Names.distinct names := by
  have hknown : ∀ name ∈ Names.distinct names, name ∈ e.fields.map Field.name :=
    fun name hname => h name (Names.mem_distinct.mp hname)
  unfold fieldsNamed
  generalize Names.distinct names = distinct at hknown
  induction distinct with
  | nil => rfl
  | cons name rest ih =>
    obtain ⟨hfirst, hrest⟩ := List.forall_mem_cons.mp hknown
    obtain ⟨f, hf⟩ := Option.isSome_iff_exists.mp (isSome_fieldCalled.mpr hfirst)
    rw [List.filterMap_cons_some hf, List.map_cons, name_fieldCalled hf, ih hrest]

/-- Looking up several names finds their fields, or fails if one of them is not known. -/
theorem mapM_getField {e : Entity} (he : e.IsIndexed) (names : List String) :
    names.mapM e.getField =
      if IsKnown e names then some (names.filterMap (fieldCalled e)) else none := by
  have hlookup : e.getField = fieldCalled e := by
    funext name
    rw [Entity.getField, he.fields, fieldCalled]
  rw [hlookup]
  induction names with
  | nil => rfl
  | cons name rest ih =>
    rw [List.mapM_cons, ih]
    cases hname : fieldCalled e name with
    | none =>
      have hunknown : ¬IsKnown e (name :: rest) := by
        intro h
        have hsome := isSome_fieldCalled.mpr (h name List.mem_cons_self)
        rw [hname] at hsome
        cases hsome
      rw [if_neg hunknown]
      rfl
    | some f =>
      have hmem : name ∈ e.fields.map Field.name := by
        rw [← isSome_fieldCalled, hname]
        rfl
      have hknown : IsKnown e (name :: rest) ↔ IsKnown e rest := by
        simp only [IsKnown, List.forall_mem_cons, hmem, true_and]
      rw [List.filterMap_cons_some hname]
      by_cases hrest : IsKnown e rest
      · rw [if_pos hrest, if_pos (hknown.mpr hrest)]
        rfl
      · rw [if_neg hrest, if_neg (hknown.not.mpr hrest)]
        rfl

theorem isKnown_distinct {e : Entity} {names : List String} :
    IsKnown e (Names.distinct names) ↔ IsKnown e names := by
  simp only [IsKnown, Names.mem_distinct]

/-! ## The search -/

/-- Whether no key of `seen` has the same set of names. -/
def IsNew (seen : List (List String)) (names : List String) : Prop :=
  ∀ other ∈ seen, other.toFinset ≠ names.toFinset

instance (seen : List (List String)) (names : List String) : Decidable (IsNew seen names) :=
  inferInstanceAs (Decidable (∀ other ∈ seen, _))

section

variable {seen : List (List String)} {names : List String}

theorem isNew_cons {other : List String} :
    IsNew (names :: seen) other ↔ other.toFinset ≠ names.toFinset ∧ IsNew seen other := by
  rw [IsNew, List.forall_mem_cons, ne_comm]
  rfl

theorem isNew_distinct_cons {other : List String} :
    IsNew (Names.distinct names :: seen) other ↔ IsNew (names :: seen) other := by
  rw [isNew_cons, isNew_cons, toFinset_distinct]

/-- The search finds a key among those seen just if it is not new. -/
theorem any_sameNames :
    seen.any (sameNames (Names.distinct names)) = !decide (IsNew seen names) := by
  rw [Bool.eq_iff_iff, List.any_eq_true, Bool.not_eq_true', decide_eq_false_iff_not]
  simp only [IsNew, sameNames_iff, toFinset_distinct, not_forall, not_not, exists_prop,
    @eq_comm _ names.toFinset]

variable (keys : List (List String))

/-- What is new, and not of the set just met, is new from now on. -/
theorem filter_isNew_filter_ne :
    (keys.filter fun other => other.toFinset ≠ names.toFinset).filter (IsNew seen ·) =
      keys.filter (IsNew (Names.distinct names :: seen) ·) := by
  rw [List.filter_filter]
  refine List.filter_congr fun other _ => ?_
  rw [← Bool.decide_and, decide_eq_decide, isNew_distinct_cons, isNew_cons, and_comm]

/-- If a set has been seen before, what is new is not of that set anyway. -/
theorem filter_isNew_filter_ne_of_seen (h : ¬IsNew seen names) :
    (keys.filter fun other => other.toFinset ≠ names.toFinset).filter (IsNew seen ·) =
      keys.filter (IsNew seen ·) := by
  rw [List.filter_filter]
  refine List.filter_congr fun other _ => ?_
  rw [← Bool.decide_and, decide_eq_decide, and_iff_left_iff_imp]
  intro hother heq
  exact h fun old hold => heq ▸ hother old hold

end

/-- **The search.** Among candidates that name something, those that stay are the first of each set
that is known and has not been seen. -/
theorem keptKeys_eq {e : Entity} (he : e.IsIndexed) {candidates : List KeyCandidate}
    (hne : ∀ c ∈ candidates, c.names ≠ []) (seen : List (List String)) :
    keptKeys e seen candidates =
      ((firstOfEachSet ((candidates.map KeyCandidate.names).filter (IsKnown e ·))).filter
        (IsNew seen ·)).map (fieldsNamed e) := by
  induction candidates generalizing seen with
  | nil => rfl
  | cons c rest ih =>
    obtain ⟨hc, hrest⟩ := List.forall_mem_cons.mp hne
    have hnonempty : (Names.distinct c.names).isEmpty = false := by
      obtain ⟨name, names, hcons⟩ := List.exists_cons_of_ne_nil hc
      rw [hcons]
      rfl
    rw [keptKeys]
    simp only [hnonempty, any_sameNames, Bool.false_or, mapM_getField he, isKnown_distinct,
      List.map_cons]
    by_cases hknown : IsKnown e c.names
    · rw [List.filter_cons, if_pos (decide_eq_true hknown), firstOfEachSet]
      by_cases hnew : IsNew seen c.names
      · -- the first of its set: from now on it is among those seen
        rw [List.filter_cons, if_pos (decide_eq_true hnew), filter_isNew_filter_ne, List.map_cons,
          ← ih hrest]
        simp only [hknown, hnew, if_true, decide_true, Bool.not_true, Bool.false_eq_true, if_false]
        rfl
      · -- its set has been seen, and so has that of all that would be dropped with it
        simp only [hnew, decide_false, Bool.not_false, if_true]
        rw [List.filter_cons, if_neg (by simpa using hnew), filter_isNew_filter_ne_of_seen _ hnew,
          ← ih hrest]
    · simp only [hknown, if_false, ite_self]
      rw [List.filter_cons, if_neg (by simpa using hknown), ← ih hrest]

/-! ## The combinations that are found -/

/-- Every candidate of an accepted entity names something. -/
theorem names_ne_nil_of_mem_keyCandidates {description : Value} {e : Entity}
    (accepted : Entity.decode description = .accepted e) :
    ∀ c ∈ keyCandidates e, c.names ≠ [] := by
  have hgroups : ∀ g ∈ e.keyGroups, g.fields ≠ [] := Entity.fields_ne_nil_of_mem_keyGroups accepted
  intro c hc
  simp only [keyCandidates, List.mem_append, List.mem_map] at hc
  rcases hc with ((⟨name, -, rfl⟩ | ⟨g, hg, rfl⟩) | ⟨g, hg, rfl⟩) | hc
  · exact List.cons_ne_nil name []
  · exact hgroups g (List.mem_append_left _ hg)
  · exact hgroups g (List.mem_append_right _ hg)
  · split_ifs at hc with hseveral
    · rw [List.mem_singleton.mp hc]
      exact List.ne_nil_of_length_pos (Nat.zero_lt_of_lt hseveral)
    · cases hc

/-- What is found for an accepted entity is what its declarations say. -/
theorem uniqueCombos_eq {description : Value} {e : Entity}
    (accepted : Entity.decode description = .accepted e) :
    uniqueCombos e = (firstOfEachSet (validKeys e)).map (fieldsNamed e) := by
  have hall : ∀ keys : List (List String), keys.filter (IsNew [] ·) = keys :=
    fun keys => List.filter_eq_self.mpr fun names _ => by simp [IsNew]
  rw [uniqueCombos, keptKeys_eq (.of_decode accepted) (names_ne_nil_of_mem_keyCandidates accepted),
    hall, validKeys, declaredKeys_eq]

theorem isKnown_of_mem_validKeys {e : Entity} {names : List String} (h : names ∈ validKeys e) :
    IsKnown e names := by
  simpa using (List.mem_filter.mp h).2

/-- The valid keys of an accepted entity name something. -/
theorem ne_nil_of_mem_validKeys {description : Value} {e : Entity}
    (accepted : Entity.decode description = .accepted e) {names : List String}
    (h : names ∈ validKeys e) : names ≠ [] := by
  have hdeclared : names ∈ (keyCandidates e).map KeyCandidate.names :=
    declaredKeys_eq e ▸ (List.mem_filter.mp h).1
  obtain ⟨c, hc, rfl⟩ := List.mem_map.mp hdeclared
  exact names_ne_nil_of_mem_keyCandidates accepted c hc

/-- The set of names of the fields for known names. -/
theorem toFinset_fieldsNamed {e : Entity} {names : List String} (h : IsKnown e names) :
    ((fieldsNamed e names).map Field.name).toFinset = names.toFinset := by
  rw [map_name_fieldsNamed h, toFinset_distinct]

theorem mem_fields_of_mem_fieldsNamed {e : Entity} {names : List String} {f : Field}
    (h : f ∈ fieldsNamed e names) : f ∈ e.fields := by
  obtain ⟨name, -, hf⟩ := List.mem_filterMap.mp h
  exact List.mem_of_find?_eq_some hf

/-! ## Entities without groups -/

section NoGroups

variable {e : Entity} (hindexes : e.uniqueIndexes = []) (hprimary : e.primaryKey = none)
  (hseveral : 2 ≤ (singleKeyNames e).length)

include hindexes hprimary hseveral

theorem declaredKeys_of_no_groups :
    declaredKeys e = (singleKeyNames e).map (fun name => [name]) ++ [singleKeyNames e] := by
  have hcombined : 1 < (singleKeyNames e).length := hseveral
  rw [declaredKeys_eq, keyCandidates, hindexes, hprimary, if_pos hcombined]
  simp

/-- Several id or unique fields declare each set of names once. -/
theorem pairwise_declaredKeys (he : e.IsIndexed) :
    (declaredKeys e).Pairwise fun a b => a.toFinset ≠ b.toFinset := by
  have hnodup : (singleKeyNames e).Nodup :=
    he.fieldNames.sublist (List.filter_sublist.map Field.name)
  rw [declaredKeys_of_no_groups hindexes hprimary hseveral, List.pairwise_append]
  refine ⟨?_, List.pairwise_singleton _ _, ?_⟩
  · rw [List.pairwise_map]
    refine hnodup.imp fun {a b} hne heq => hne ?_
    have ha : a ∈ [b].toFinset := heq ▸ List.mem_toFinset.mpr List.mem_cons_self
    simpa using ha
  · rintro _ hsingle _ hall heq
    obtain ⟨name, -, rfl⟩ := List.mem_map.mp hsingle
    obtain rfl := List.mem_singleton.mp hall
    -- one name, against at least two different ones
    have hcard : ([name] : List String).toFinset.card = (singleKeyNames e).length := by
      rw [heq, List.toFinset_card_of_nodup hnodup]
    simp at hcard
    omega

/-- Each of them stays, and so do all together. -/
theorem length_firstOfEachSet_validKeys (he : e.IsIndexed) :
    (firstOfEachSet (validKeys e)).length = (singleKeyNames e).length + 1 := by
  have hvalid : validKeys e = declaredKeys e := by
    refine List.filter_eq_self.mpr fun names hnames => decide_eq_true fun name hname => ?_
    have hsingle : name ∈ singleKeyNames e := by
      rw [declaredKeys_of_no_groups hindexes hprimary hseveral, List.mem_append] at hnames
      rcases hnames with hnames | hnames
      · obtain ⟨single, hsingle, rfl⟩ := List.mem_map.mp hnames
        rwa [List.mem_singleton.mp hname]
      · rwa [List.mem_singleton.mp hnames] at hname
    exact (List.filter_sublist.map Field.name).subset hsingle
  rw [hvalid, firstOfEachSet_eq_self (pairwise_declaredKeys hindexes hprimary hseveral he),
    declaredKeys_of_no_groups hindexes hprimary hseveral, List.length_append, List.length_map,
    List.length_singleton]

end NoGroups

/-- **Combinations.** What identifies a row of an accepted entity are, of the declared keys with
known names only, the first of each set of names, as fields for the distinct names. So no
combination is empty or holds a field twice, no two have the same set of names, and the set of
every such key is among them. Several id or unique fields, without any group, make one combination
each and one together. -/
theorem combinations_follow_declarations {description : Value} {e : Entity}
    (accepted : Entity.decode description = .accepted e) :
    uniqueCombos e = (firstOfEachSet (validKeys e)).map (fieldsNamed e) ∧
      (∀ names ∈ validKeys e, (fieldsNamed e names).map Field.name = Names.distinct names) ∧
      (∀ combo ∈ uniqueCombos e,
        combo ≠ [] ∧ (combo.map Field.name).Nodup ∧ ∀ f ∈ combo, f ∈ e.fields) ∧
      ((uniqueCombos e).Pairwise fun a b =>
        (a.map Field.name).toFinset ≠ (b.map Field.name).toFinset) ∧
      (∀ names ∈ validKeys e, ∃ combo ∈ uniqueCombos e,
        (combo.map Field.name).toFinset = names.toFinset) ∧
      ∀ n, (e.fields.filter fun f => f.isId || f.isUnique).length = n → 2 ≤ n →
        e.uniqueIndexes = [] → e.primaryKey = none → (uniqueCombos e).length = n + 1 := by
  have hcombos : uniqueCombos e = (firstOfEachSet (validKeys e)).map (fieldsNamed e) :=
    uniqueCombos_eq accepted
  have hvalid : ∀ names ∈ firstOfEachSet (validKeys e), names ∈ validKeys e :=
    fun _ hnames => (firstOfEachSet_sublist _).subset hnames
  refine ⟨hcombos, fun names hnames => map_name_fieldsNamed (isKnown_of_mem_validKeys hnames),
    ?_, ?_, ?_, ?_⟩
  · intro combo hcombo
    rw [hcombos] at hcombo
    obtain ⟨names, hnames, rfl⟩ := List.mem_map.mp hcombo
    have hnamed : (fieldsNamed e names).map Field.name = Names.distinct names :=
      map_name_fieldsNamed (isKnown_of_mem_validKeys (hvalid names hnames))
    refine ⟨?_, hnamed ▸ Names.nodup_distinct names, fun f hf => mem_fields_of_mem_fieldsNamed hf⟩
    intro hempty
    obtain ⟨name, rest, hcons⟩ :=
      List.exists_cons_of_ne_nil (ne_nil_of_mem_validKeys accepted (hvalid names hnames))
    have hmem : name ∈ Names.distinct names :=
      Names.mem_distinct.mpr (hcons ▸ List.mem_cons_self)
    rw [← hnamed, hempty] at hmem
    exact List.not_mem_nil hmem
  · rw [hcombos, List.pairwise_map]
    refine (pairwise_firstOfEachSet (validKeys e)).imp_of_mem fun ha hb hne => ?_
    rwa [toFinset_fieldsNamed (isKnown_of_mem_validKeys (hvalid _ ha)),
      toFinset_fieldsNamed (isKnown_of_mem_validKeys (hvalid _ hb))]
  · intro names hnames
    obtain ⟨kept, hkept, hset⟩ := exists_mem_firstOfEachSet hnames
    refine ⟨fieldsNamed e kept, hcombos ▸ List.mem_map_of_mem hkept, ?_⟩
    rw [toFinset_fieldsNamed (isKnown_of_mem_validKeys (hvalid kept hkept)), hset]
  · rintro n rfl hseveral hindexes hprimary
    have hsingles : (e.fields.filter fun f => f.isId || f.isUnique).length =
        (singleKeyNames e).length := (List.length_map Field.name).symm
    rw [hsingles] at hseveral ⊢
    rw [hcombos, List.length_map,
      length_firstOfEachSet_validKeys hindexes hprimary hseveral (.of_decode accepted)]

end Schema

/-! Seats, as they are described and accepted, with groups and without. -/

namespace Sample

open Document

/-- The field that such a description gives. -/
def keyField (name : String) (isId isUnique : Bool) : Field :=
  ⟨name, none, "String", false, true, false, isId, isUnique, none, [], [], none⟩

def keyFieldDescription (name : String) (isId isUnique : Bool) : Value :=
  .mapping [("name", .str name), ("type", .str "String"), ("isId", .bool isId),
    ("isUnique", .bool isUnique)]

/-- A seat with these groups. -/
def seat (uniqueIndexes : List KeyGroup) (primaryKey : Option KeyGroup) : Entity :=
  let fields := [keyField "id" true false, keyField "row" false false,
    keyField "team" false false, keyField "code" false true]
  ⟨"Seat", fields, primaryKey, uniqueIndexes, none, fields⟩

def seatDescription (groups : Entries) : Value :=
  .mapping (("name", .str "Seat") :: ("fields", .list [
    keyFieldDescription "id" true false, keyFieldDescription "row" false false,
    keyFieldDescription "team" false false, keyFieldDescription "code" false true]) :: groups)

/-- One group names a field twice, one is that group again in another order, one names a field that
is not there, and the primary key is all id and unique fields. -/
def groupedSeat : Entity :=
  seat [⟨none, ["row", "team", "row"]⟩, ⟨none, ["team", "row"]⟩, ⟨none, ["id", "door"]⟩]
    (some ⟨none, ["code", "id"]⟩)

def groupedSeatDescription : Value :=
  let group (names : List String) : Value := .mapping [("fields", .list (names.map .str))]
  seatDescription [
    ("uniqueIndexes", .list [group ["row", "team", "row"], group ["team", "row"],
      group ["id", "door"]]),
    ("primaryKey", group ["code", "id"])]

end Sample

namespace Schema

/-- A seat is identified by its id, by its code, by row and team, and by code and id; without groups
by three combinations. -/
theorem seats_have_combinations :
    Entity.decode Sample.groupedSeatDescription = .accepted Sample.groupedSeat ∧
      ((uniqueCombos Sample.groupedSeat).map fun combo => combo.map Field.name) =
        [["id"], ["code"], ["row", "team"], ["code", "id"]] ∧
      Entity.decode (Sample.seatDescription []) = .accepted (Sample.seat [] none) ∧
      (uniqueCombos (Sample.seat [] none)).length = 3 := by
  have hgrouped : Entity.decode Sample.groupedSeatDescription = .accepted Sample.groupedSeat :=
    Checked.eq_accepted_of_value? (by decide +kernel)
  have hplain : Entity.decode (Sample.seatDescription []) = .accepted (Sample.seat [] none) :=
    Checked.eq_accepted_of_value? (by decide +kernel)
  refine ⟨hgrouped, ?_, hplain, ?_⟩
  · rw [(combinations_follow_declarations hgrouped).1]
    decide +kernel
  · exact (combinations_follow_declarations hplain).2.2.2.2.2 2 rfl (Nat.le_refl 2) rfl rfl

end Schema

end ModelSchemas

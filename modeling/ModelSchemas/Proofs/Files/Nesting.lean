import ModelSchemas.Proofs.Files.Saving

/-!
# Missing directories

A directory that is missing waits until the one above it has been made. Where more directories are
missing than calls may nest, the program breaks down before it has made any of them.
-/

namespace ModelSchemas

namespace Files

/-- A path that does not lead back up is resolved. -/
theorem Path.IsResolved.resolve_eq {p : Path} (h : p.IsResolved) : p.resolve = p := by
  have hfold : ∀ (names : List String) (here : Path), upName ∉ names →
      names.foldl resolveName here = ⟨here.names ++ names⟩ := by
    intro names
    induction names with
    | nil => simp
    | cons name rest ih =>
      intro here hup
      obtain ⟨hname, hrest⟩ := not_or.mp (mt List.mem_cons.mpr hup)
      rw [List.foldl_cons, ih _ hrest, resolveName, if_neg (Ne.symm hname), names_child,
        List.append_assoc, List.singleton_append]
  exact hfold p.names root h

/-- A text that joins names starts as the first of them. -/
theorem head?_intercalate {first : String} {c : Char} (h : first.toList.head? = some c)
    (rest : List String) : (String.intercalate "/" (first :: rest)).toList.head? = some c := by
  rw [String.toList_intercalate]
  cases rest with
  | nil => simpa using h
  | cons second more =>
    rw [List.map_cons, List.map_cons, List.intercalate_cons_cons, List.head?_append,
      List.head?_append, h]
    rfl

/-- The names of a path are read back from a text that joins them. -/
theorem Path.namesOf_intercalate {names : List String}
    (h : ∀ name ∈ names, '/' ∉ name.toList ∧ name ≠ "" ∧ name ≠ ".") :
    namesOf (String.intercalate "/" names).toList = names := by
  by_cases hnil : names = []
  · rw [hnil]
    rfl
  have hsplit : (List.intercalate ['/'] (names.map String.toList)).splitOn '/' =
      names.map String.toList := by
    refine List.splitOn_intercalate '/' ?_ (mt List.map_eq_nil_iff.mp hnil)
    intro piece hpiece
    obtain ⟨name, hname, rfl⟩ := List.mem_map.mp hpiece
    exact (h name hname).1
  have hkept : ∀ piece ∈ names.map String.toList, (piece ≠ [] && piece ≠ ['.']) = true := by
    intro piece hpiece
    obtain ⟨name, hname, rfl⟩ := List.mem_map.mp hpiece
    obtain ⟨-, hempty, hdot⟩ := h name hname
    have hempty : name.toList ≠ [] := fun heq => hempty (String.toList_inj.mp heq)
    have hdot : name.toList ≠ ['.'] := fun heq => hdot (String.toList_inj.mp heq)
    simp only [ne_eq, hempty, hdot, not_false_eq_true, decide_true, Bool.and_true]
  have htext : (String.intercalate "/" names).toList =
      List.intercalate ['/'] (names.map String.toList) := String.toList_intercalate
  rw [namesOf, htext, hsplit, List.filter_eq_self.mpr hkept, List.map_map]
  simp only [Function.comp_def, String.ofList_toList, List.map_id']

theorem Path.follow_intercalate (base : Path) {names : List String}
    (h : ∀ name ∈ names, '/' ∉ name.toList ∧ name ≠ "" ∧ name ≠ ".") :
    base.follow (String.intercalate "/" names) = ⟨base.names ++ names⟩ := by
  have hhead : (String.intercalate "/" names).toList.head? ≠ some '/' := by
    cases names with
    | nil => exact nofun
    | cons first rest =>
      obtain ⟨hslash, hempty, -⟩ := h first List.mem_cons_self
      cases hlist : first.toList with
      | nil => exact absurd (String.toList_eq_nil_iff.mp hlist) hempty
      | cons c more =>
        rw [head?_intercalate (congrArg List.head? hlist) rest]
        rintro ⟨⟩
        exact hslash (hlist ▸ List.mem_cons_self)
  rw [follow, if_neg hhead, namesOf_intercalate h]

/-- Nothing is found below a place where nothing stands. -/
theorem Tree.walk_of_missing {t : Tree} {first : String} (hname : first ≠ Path.upName)
    (hsize : first.utf8ByteSize ≤ nameLimit) (hfree : t.get? ⟨[first]⟩ = none) (second : String)
    (rest : List String) : t.walk ⟨first :: second :: rest⟩ = .error .notFound := by
  have hfirst : t.step .root first = .ok ⟨[first]⟩ := by
    rw [step, get?_root]
    simp only [if_neg hname, if_neg (Nat.not_lt.mpr hsize)]
    rfl
  have hsecond : t.step ⟨[first]⟩ second = .error .notFound := by rw [step, hfree]
  rw [walk, List.foldlM_cons, hfirst]
  show (List.foldlM t.step ⟨[first]⟩ (second :: rest) : Except FaultKind Path) = _
  rw [List.foldlM_cons, hsecond]
  rfl

variable {machine : Machine} {limit : Nat} {d : Disk}

/-- On a disk that refuses nothing else, a directory is not made where its place is not found. -/
theorem makeDirectory_of_notFound (hrefusals : d.refusals = []) {p : Path}
    (hwalk : d.tree.walk p = .error .notFound) :
    (Disk.calls machine).makeDirectory p d = (.ok (.error ⟨.notFound, [p]⟩), d) := by
  obtain ⟨tree, refusals, tag⟩ := d
  obtain rfl : refusals = [] := hrefusals
  have hmake : tree.makeDirectory p = .error .notFound := by
    rw [Tree.makeDirectory, hwalk]
    rfl
  show Disk.returning (Disk.change [p] fun t => t.makeDirectory p) _ = _
  simp only [Disk.returning, Disk.change, List.head?_nil, List.tail_nil, hmake]

/-- **Too many missing directories.** If the places of a directory and of those above it are not
found for as long as calls may nest, the program breaks down and the disk is as it was. -/
theorem ensureNames_tooDeep (hnesting : machine.nesting = some limit) (hrefusals : d.refusals = [])
    {names : List String} {depth : Nat}
    (hmissing : ∀ n, depth + n ≤ limit → d.tree.walk ⟨(names.drop n).reverse⟩ = .error .notFound) :
    ensureNames (Disk.calls machine) depth names d = (.error .tooDeep, d) := by
  have hends {depth : Nat} (hdepth : ¬depth ≤ limit) : machine.EndsBefore depth :=
    ⟨limit, hnesting, Nat.lt_of_not_le hdepth⟩
  have hgoes {depth : Nat} (hdepth : depth ≤ limit) : ¬machine.EndsBefore depth := by
    rintro ⟨other, hother, hlt⟩
    cases hnesting.symm.trans hother
    exact Nat.not_lt_of_le hdepth hlt
  induction names generalizing depth with
  | nil =>
    have hdeep : ¬depth ≤ limit := fun hle => nomatch hmissing 0 hle
    exact run_bind_error (enter_of_endsBefore (hends hdeep) d)
  | cons name above ih =>
    by_cases hdepth : depth ≤ limit
    · have hmake : (Disk.calls machine).makeDirectory ⟨(name :: above).reverse⟩ d = _ :=
        makeDirectory_of_notFound hrefusals (hmissing 0 hdepth)
      -- the directory above is looked for one call deeper, where the same is missing
      have habove : ensureNames (Disk.calls machine) (depth + 1) above d =
          (.error .tooDeep, d) := by
        refine ih fun n hn => hmissing (n + 1) ?_
        rwa [Nat.add_assoc, Nat.add_comm 1] at hn
      rw [ensureNames, run_bind (enter_of_not_endsBefore (hgoes hdepth) d), run_bind hmake]
      exact run_bind_error habove
    · exact run_bind_error (enter_of_endsBefore (hends hdepth) d)

/-- The same of a directory whose first name is missing already. -/
theorem ensureDirectory_tooDeep (hnesting : machine.nesting = some limit)
    (hrefusals : d.refusals = []) {first : String} (hname : first ≠ Path.upName)
    (hsize : first.utf8ByteSize ≤ Tree.nameLimit) (hfree : d.tree.get? ⟨[first]⟩ = none)
    {rest : List String} (hdeep : limit < rest.length) :
    ensureDirectory (Disk.calls machine) ⟨first :: rest⟩ d = (.error .tooDeep, d) := by
  refine ensureNames_tooDeep hnesting hrefusals fun n hn => ?_
  have hlength : ((first :: rest).reverse.drop n).reverse =
      (first :: rest).take (rest.length + 1 - n) := by
    rw [List.drop_reverse, List.reverse_reverse, List.length_cons]
  rw [hlength]
  obtain ⟨k, hk⟩ : ∃ k, rest.length + 1 - n = k + 2 := ⟨rest.length - 1 - n, by omega⟩
  rw [hk, List.take_succ_cons]
  cases rest with
  | nil => exact absurd hdeep (Nat.not_lt_zero limit)
  | cons second more =>
    rw [List.take_succ_cons]
    exact Tree.walk_of_missing hname hsize hfree second _

end Files

end ModelSchemas

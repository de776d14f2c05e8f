import Mathlib.Tactic.SplitIfs
import ModelSchemas.Files.Tree

/-!
# Changes of a file tree

Where paths lead, and what two trees have in common when one has come from the other: only
directories were added, or a file was saved at one place as well. A path leads through directories
only, so that it leads to the same place as long as these stay.
-/

namespace ModelSchemas

namespace Files

/-! ## Resolved paths -/

namespace Path

/-- No name on the way leads back up. -/
def IsResolved (p : Path) : Prop := upName ∉ p.names

theorem isResolved_root : root.IsResolved := by simp [IsResolved, root]

theorem IsResolved.parent {p : Path} (h : p.IsResolved) : p.parent.IsResolved :=
  fun hmem => h (List.dropLast_subset p.names hmem)

theorem IsResolved.child {p : Path} (h : p.IsResolved) {name : String} (hname : name ≠ upName) :
    (p.child name).IsResolved := by
  intro hmem
  rcases List.mem_append.mp hmem with hmem | hmem
  · exact h hmem
  · exact hname (List.mem_singleton.mp hmem).symm

/-- Resolving a path leaves no name that leads back up. -/
theorem isResolved_resolve (p : Path) : p.resolve.IsResolved := by
  have hfold : ∀ (names : List String) (here : Path), here.IsResolved →
      (names.foldl resolveName here).IsResolved := by
    intro names
    induction names with
    | nil => exact fun _ h => h
    | cons name rest ih =>
      intro here h
      refine ih _ ?_
      unfold resolveName
      split_ifs with hname
      · exact h.parent
      · exact h.child hname
  exact hfold p.names root isResolved_root

end Path

/-! ## Where paths lead -/

namespace Tree

/-- Every directory of one tree is a directory of the other. -/
def KeepsDirectories (t u : Tree) : Prop :=
  ∀ p, t.get? p = some .directory → u.get? p = some .directory

/-- Steps are made in directories only. -/
theorem get?_of_step {t : Tree} {here there : Path} {name : String}
    (h : t.step here name = .ok there) : t.get? here = some .directory := by
  unfold step at h
  split at h
  · cases h
  · cases h
  · assumption

theorem step_of_keepsDirectories {t u : Tree} (h : t.KeepsDirectories u) {here there : Path}
    {name : String} (hstep : t.step here name = .ok there) : u.step here name = .ok there := by
  have hhere := get?_of_step hstep
  rw [step, hhere] at hstep
  rw [step, h here hhere]
  exact hstep

/-- The bind of two results that are both given. -/
theorem bind_eq_ok {α β : Type} {x : Except FaultKind α} {f : α → Except FaultKind β} {b : β} :
    (x >>= f) = .ok b ↔ ∃ a, x = .ok a ∧ f a = .ok b := by
  cases x with
  | error kind => simp [bind, Except.bind]
  | ok a => simp [bind, Except.bind]

theorem foldlM_of_keepsDirectories {t u : Tree} (h : t.KeepsDirectories u) {names : List String}
    {here there : Path} (hwalk : names.foldlM t.step here = .ok there) :
    names.foldlM u.step here = .ok there := by
  induction names generalizing here with
  | nil => exact hwalk
  | cons name rest ih =>
    rw [List.foldlM_cons, bind_eq_ok] at hwalk ⊢
    obtain ⟨next, hstep, hrest⟩ := hwalk
    exact ⟨next, step_of_keepsDirectories h hstep, ih hrest⟩

/-- A path leads where it led as long as no directory is lost. -/
theorem walk_of_keepsDirectories {t u : Tree} (h : t.KeepsDirectories u) {p place : Path}
    (hwalk : t.walk p = .ok place) : u.walk p = .ok place :=
  foldlM_of_keepsDirectories h hwalk

/-- A name other than two dots leads down. -/
theorem eq_child_of_step {t : Tree} {here there : Path} {name : String} (hname : name ≠ Path.upName)
    (h : t.step here name = .ok there) : there = here.child name := by
  rw [step, get?_of_step h] at h
  simp only [if_neg hname] at h
  split_ifs at h
  cases h
  rfl

theorem names_of_foldlM {t : Tree} {names : List String} {here there : Path}
    (hup : Path.upName ∉ names) (h : names.foldlM t.step here = .ok there) :
    there.names = here.names ++ names := by
  induction names generalizing here with
  | nil =>
    cases h
    simp
  | cons name rest ih =>
    rw [List.foldlM_cons, bind_eq_ok] at h
    obtain ⟨next, hstep, hrest⟩ := h
    obtain ⟨hname, hup⟩ := not_or.mp (mt List.mem_cons.mpr hup)
    rw [ih hup hrest, eq_child_of_step (Ne.symm hname) hstep, Path.names_child, List.append_assoc,
      List.singleton_append]

/-- A path without two dots leads to itself, if it leads anywhere. -/
theorem eq_of_walk {t : Tree} {p place : Path} (h : p.IsResolved) (hwalk : t.walk p = .ok place) :
    place = p := by
  obtain ⟨names⟩ := p
  obtain ⟨placeNames⟩ := place
  have hnames := names_of_foldlM h hwalk
  simpa [Path.root] using hnames

theorem walk_child (t : Tree) (p : Path) (name : String) :
    t.walk (p.child name) = t.walk p >>= fun here => t.step here name := by
  unfold walk
  rw [Path.names_child, List.foldlM_append]
  simp

/-- What stands above the end of a resolved path is a directory. -/
theorem get?_parent_of_walk {t : Tree} {p place : Path} (h : p.IsResolved)
    (hwalk : t.walk p = .ok place) : t.get? p.parent = some .directory := by
  obtain ⟨names⟩ := p
  rcases List.eq_nil_or_concat names with rfl | ⟨above, name, rfl⟩
  · exact get?_root t
  · have hchild : (⟨above.concat name⟩ : Path) = Path.child ⟨above⟩ name := by
      rw [List.concat_eq_append]
      rfl
    rw [hchild] at h hwalk ⊢
    obtain ⟨here, hwalk, hstep⟩ := bind_eq_ok.mp ((walk_child t _ name).symm.trans hwalk)
    have habove : Path.IsResolved ⟨above⟩ := fun hmem => h (List.mem_append_left _ hmem)
    rw [Path.parent_child, ← eq_of_walk habove hwalk]
    exact get?_of_step hstep

/-! ## What has changed -/

/-- Nothing but directories has been added, and nothing is lost. -/
structure OnlyDirectoriesAdded (t u : Tree) : Prop where
  kept : ∀ p e, t.get? p = some e → u.get? p = some e
  added : ∀ p bytes, u.get? p = some (.file bytes) → t.get? p = some (.file bytes)

theorem OnlyDirectoriesAdded.refl (t : Tree) : t.OnlyDirectoriesAdded t :=
  ⟨fun _ _ h => h, fun _ _ h => h⟩

theorem OnlyDirectoriesAdded.of_get?_eq {t u : Tree} (h : ∀ p, u.get? p = t.get? p) :
    t.OnlyDirectoriesAdded u :=
  ⟨fun p _ hp => (h p).trans hp, fun p _ hp => (h p).symm.trans hp⟩

theorem OnlyDirectoriesAdded.trans {t u v : Tree} (h : t.OnlyDirectoriesAdded u)
    (h' : u.OnlyDirectoriesAdded v) : t.OnlyDirectoriesAdded v :=
  ⟨fun p e hp => h'.kept p e (h.kept p e hp), fun p b hp => h.added p b (h'.added p b hp)⟩

/-- A file was saved at one place; apart from that, nothing but directories has been added, and
nothing is lost. -/
structure HasSaved (t u : Tree) (place : Path) (bytes : List UInt8) : Prop where
  holds : u.get? place = some (.file bytes)
  wasNoDirectory : t.get? place ≠ some .directory
  kept : ∀ p e, t.get? p = some e → p = place ∨ u.get? p = some e
  added : ∀ p b, u.get? p = some (.file b) → p = place ∨ t.get? p = some (.file b)

/-- A tree in which one entry was replaced by a file. -/
theorem HasSaved.of_get?_eq {t u : Tree} {place : Path} {bytes : List UInt8}
    (hplace : t.get? place ≠ some .directory)
    (h : ∀ p, u.get? p = if p = place then some (.file bytes) else t.get? p) :
    t.HasSaved u place bytes where
  holds := by rw [h, if_pos rfl]
  wasNoDirectory := hplace
  kept p e hp := by
    by_cases heq : p = place
    · exact .inl heq
    · right
      rw [h, if_neg heq, hp]
  added p b hp := by
    by_cases heq : p = place
    · exact .inl heq
    · right
      rwa [h, if_neg heq] at hp

theorem OnlyDirectoriesAdded.trans_hasSaved {t u v : Tree} {place : Path} {bytes : List UInt8}
    (h : t.OnlyDirectoriesAdded u) (h' : u.HasSaved v place bytes) : t.HasSaved v place bytes where
  holds := h'.holds
  wasNoDirectory hp := h'.wasNoDirectory (h.kept place _ hp)
  kept p e hp := h'.kept p e (h.kept p e hp)
  added p b hp := (h'.added p b hp).imp_right (h.added p b)

theorem HasSaved.trans_onlyDirectoriesAdded {t u v : Tree} {place : Path} {bytes : List UInt8}
    (h : t.HasSaved u place bytes) (h' : u.OnlyDirectoriesAdded v) : t.HasSaved v place bytes where
  holds := h'.kept place _ h.holds
  wasNoDirectory := h.wasNoDirectory
  kept p e hp := (h.kept p e hp).imp_right (h'.kept p e)
  added p b hp := h.added p b (h'.added p b hp)

theorem OnlyDirectoriesAdded.keepsDirectories {t u : Tree} (h : t.OnlyDirectoriesAdded u) :
    t.KeepsDirectories u :=
  fun p hp => h.kept p _ hp

theorem HasSaved.keepsDirectories {t u : Tree} {place : Path} {bytes : List UInt8}
    (h : t.HasSaved u place bytes) : t.KeepsDirectories u := by
  intro p hp
  rcases h.kept p _ hp with rfl | hu
  · exact absurd hp h.wasNoDirectory
  · exact hu

/-- A file that was saved is found where the path leads. -/
theorem look_eq {t : Tree} {p place : Path} (hwalk : t.walk p = .ok place) :
    t.look p = t.get? place := by
  rw [look, hwalk]

end Tree

end Files

end ModelSchemas

import ModelSchemas.Files.Save
import ModelSchemas.Proofs.Files.Change

/-!
# Saving on a disk

What each call may do to the tree of a disk, whether or not it is refused, and from that what saving
a file does: if it fails, the tree is as it was, and if it succeeds, one file has been replaced. A
write that is refused on the way may have put some bytes into the file; a replacement in one step
does not suffer from that. Only making directories may break down, and only if the machine ends
calls that nest as deep as there are names in the path.
-/

namespace ModelSchemas

namespace Files

/-! ## Runs -/

section Runs

variable {α β : Type} {x : OnDisk α} {f : α → OnDisk β} {d d₁ : Disk}

/-- A run goes on from where its first part ends. -/
theorem run_bind {a : α} (h : x d = (.ok a, d₁)) : (x >>= f) d = f a d₁ := by
  show ExceptT.bindCont f (x d).1 (x d).2 = _
  rw [h]
  rfl

/-- A run is over where its first part breaks down. -/
theorem run_bind_error {b : Breakdown} (h : x d = (.error b, d₁)) :
    (x >>= f) d = (.error b, d₁) := by
  show ExceptT.bindCont f (x d).1 (x d).2 = _
  rw [h]
  rfl

/-- A run has broken down in its first part, or it has gone on from there. -/
theorem bind_cases {outcome : Except Breakdown β} (h : (x >>= f) d = (outcome, d₁)) :
    (∃ b, outcome = .error b ∧ x d = (.error b, d₁)) ∨
      ∃ a d₂, x d = (.ok a, d₂) ∧ f a d₂ = (outcome, d₁) := by
  rcases hx : x d with ⟨first, d₂⟩
  cases first with
  | error b =>
    rw [run_bind_error hx] at h
    cases h
    exact .inl ⟨b, rfl, rfl⟩
  | ok a =>
    rw [run_bind hx] at h
    exact .inr ⟨a, d₂, rfl, h⟩

/-- A run that comes to a result that passes a test. -/
theorem exists_of_any (x : OnDisk α) (d : Disk) {test : α → Bool}
    (h : (x d).1.toOption.any test = true) : ∃ a, x d = (.ok a, (x d).2) ∧ test a = true := by
  rcases hx : x d with ⟨_ | a, d₁⟩
  · rw [hx] at h
    cases h
  · rw [hx] at h
    exact ⟨a, rfl, h⟩

/-- A call that comes to a result does not break down. -/
theorem Disk.exists_of_returning (call : Disk → α × Disk) {outcome : Except Breakdown α}
    (h : Disk.returning call d = (outcome, d₁)) : ∃ a, outcome = .ok a ∧ call d = (a, d₁) := by
  cases h
  exact ⟨_, rfl, rfl⟩

end Runs

/-- A change is refused, or it is what the tree makes of it. -/
theorem Disk.change_cases {paths : List Path} {edit : Tree → Except FaultKind Tree} {d d₁ : Disk}
    {outcome : Except Fault Unit} (h : Disk.change paths edit d = (outcome, d₁)) :
    ((∃ fault, outcome = .error fault) ∧ d₁.tree = d.tree) ∨
      (outcome = .ok () ∧ edit d.tree = .ok d₁.tree) := by
  unfold Disk.change at h
  split at h
  · cases h
    exact .inl ⟨⟨_, rfl⟩, rfl⟩
  · split at h
    · cases h
      exact .inl ⟨⟨_, rfl⟩, rfl⟩
    · rename_i hedit
      cases h
      exact .inr ⟨rfl, hedit⟩

variable {machine : Machine}

/-- A write that is refused leaves the tree alone or other bytes in the file. -/
theorem write_cases {p : Path} {bytes : List UInt8} {d d₁ : Disk}
    {outcome : Except Breakdown (Except Fault Unit)}
    (h : (Disk.calls machine).write p bytes d = (outcome, d₁)) :
    ((∃ fault, outcome = .ok (.error fault)) ∧ (d₁.tree = d.tree ∨
        ∃ left, machine.torn bytes = some left ∧ d.tree.write p left = .ok d₁.tree)) ∨
      (outcome = .ok (.ok ()) ∧ d.tree.write p bytes = .ok d₁.tree) := by
  obtain ⟨written, rfl, hwrite⟩ := Disk.exists_of_returning (Disk.write machine p bytes) h
  unfold Disk.write at hwrite
  rcases hrun : d.change [p] fun t => t.write p bytes with ⟨changed, after⟩
  rw [hrun] at hwrite
  rcases Disk.change_cases hrun with ⟨⟨fault, rfl⟩, htree⟩ | ⟨rfl, hwritten⟩
  · rw [← htree]
    dsimp only at hwrite
    split at hwrite
    · rename_i tree hleft
      obtain ⟨left, htorn, hleft⟩ := Option.map_eq_some_iff.mp hleft
      cases hwrite
      exact .inl ⟨⟨fault, rfl⟩, .inr ⟨left, htorn, hleft⟩⟩
    · cases hwrite
      exact .inl ⟨⟨fault, rfl⟩, .inl rfl⟩
  · cases hwrite
    exact .inr ⟨rfl, hwritten⟩

/-- A path is resolved by its names, or the program breaks down there. -/
theorem resolve_eq (machine : Machine) (p : Path) (d : Disk) :
    (Disk.calls machine).resolve p d =
      (if machine.resolves p then .ok p.resolve else .error (.unresolvable p), d) := by
  cases hresolves : machine.resolves p with
  | true =>
    simp only [Disk.calls, hresolves, if_true]
    rfl
  | false =>
    simp only [Disk.calls, hresolves, Bool.false_eq_true, if_false]
    rfl

theorem resolve_cases {p : Path} {d d₁ : Disk} {outcome : Except Breakdown Path}
    (h : (Disk.calls machine).resolve p d = (outcome, d₁)) :
    d₁ = d ∧ (outcome = .ok p.resolve ∨
      outcome = .error (.unresolvable p) ∧ machine.resolves p = false) := by
  rw [resolve_eq] at h
  cases h
  cases machine.resolves p with
  | true => exact ⟨rfl, .inl rfl⟩
  | false => exact ⟨rfl, .inr ⟨rfl, rfl⟩⟩

/-! ## Directories -/

/-- The machine ends calls that nest as deep as this, or sooner. -/
def Machine.EndsBefore (machine : Machine) (depth : Nat) : Prop :=
  ∃ limit, machine.nesting = some limit ∧ limit < depth

theorem Machine.EndsBefore.mono {depth deeper : Nat} (h : machine.EndsBefore depth)
    (hle : depth ≤ deeper) : machine.EndsBefore deeper :=
  h.imp fun _ hlimit => ⟨hlimit.1, Nat.lt_of_lt_of_le hlimit.2 hle⟩

theorem Machine.endsBefore_iff {depth : Nat} :
    machine.EndsBefore depth ↔ machine.nesting.all (depth ≤ ·) = false := by
  unfold EndsBefore
  cases machine.nesting with
  | none => simp
  | some limit => simp

/-- Calls nest, or they are too deep and the machine ends them here. -/
theorem enter_eq (machine : Machine) (depth : Nat) (d : Disk) :
    (Disk.calls machine).enter depth d =
      (if machine.nesting.all (depth ≤ ·) then .ok () else .error .tooDeep, d) := by
  cases hnesting : machine.nesting.all (depth ≤ ·) with
  | true =>
    simp only [Disk.calls, hnesting, if_true]
    rfl
  | false =>
    simp only [Disk.calls, hnesting, Bool.false_eq_true, if_false]
    rfl

theorem enter_of_endsBefore {depth : Nat} (h : machine.EndsBefore depth) (d : Disk) :
    (Disk.calls machine).enter depth d = (.error .tooDeep, d) := by
  rw [enter_eq, Machine.endsBefore_iff.mp h, if_neg Bool.false_ne_true]

theorem enter_of_not_endsBefore {depth : Nat} (h : ¬machine.EndsBefore depth) (d : Disk) :
    (Disk.calls machine).enter depth d = (.ok (), d) := by
  rw [Machine.endsBefore_iff, Bool.not_eq_false] at h
  rw [enter_eq, h, if_pos rfl]

/-- Whatever becomes of it, the run adds directories and does nothing else, and it breaks down only
if the machine ends calls that nest as deep as this. -/
def AddsDirectories (machine : Machine) (depth : Nat) {α : Type} (x : OnDisk α) : Prop :=
  ∀ d : Disk, d.tree.OnlyDirectoriesAdded (x d).2.tree ∧
    ∀ b, (x d).1 = .error b → b = .tooDeep ∧ machine.EndsBefore depth

namespace AddsDirectories

variable {α β : Type} {depth : Nat}

theorem pure (a : α) : AddsDirectories machine depth (Pure.pure a : OnDisk α) :=
  fun d => ⟨.refl d.tree, fun _ hb => nomatch hb⟩

theorem bind {x : OnDisk α} {f : α → OnDisk β} (hx : AddsDirectories machine depth x)
    (hf : ∀ a, AddsDirectories machine depth (f a)) :
    AddsDirectories machine depth (x >>= f) := by
  intro d
  obtain ⟨hadded, hcause⟩ := hx d
  rcases hfirst : x d with ⟨first, d₁⟩
  rw [hfirst] at hadded hcause
  cases first with
  | error b =>
    rw [run_bind_error hfirst]
    refine ⟨hadded, fun b' hb => hcause b' ?_⟩
    cases hb
    rfl
  | ok a =>
    rw [run_bind hfirst]
    exact ⟨hadded.trans (hf a d₁).1, (hf a d₁).2⟩

/-- Calls may nest deeper than they do. -/
theorem mono {deeper : Nat} {x : OnDisk α} (h : AddsDirectories machine depth x)
    (hle : depth ≤ deeper) : AddsDirectories machine deeper x :=
  fun d => ⟨(h d).1, fun b hb => ⟨((h d).2 b hb).1, ((h d).2 b hb).2.mono hle⟩⟩

theorem enter (depth : Nat) :
    AddsDirectories machine depth ((Disk.calls machine).enter depth) := by
  intro d
  by_cases hdeep : machine.EndsBefore depth
  · rw [enter_of_endsBefore hdeep]
    refine ⟨.refl _, fun b hb => ?_⟩
    cases hb
    exact ⟨rfl, hdeep⟩
  · rw [enter_of_not_endsBefore hdeep]
    exact ⟨.refl _, fun b hb => nomatch hb⟩

theorem look (p : Path) : AddsDirectories machine depth ((Disk.calls machine).look p) :=
  fun d => ⟨.refl d.tree, fun _ hb => nomatch hb⟩

/-- A directory is made where nothing stands. -/
theorem makeDirectory (p : Path) :
    AddsDirectories machine depth ((Disk.calls machine).makeDirectory p) := by
  intro d
  refine ⟨?_, fun b hb => nomatch hb⟩
  rcases hrun : Disk.change [p] (fun t => t.makeDirectory p) d with ⟨outcome, d₁⟩
  have hcall : ((Disk.calls machine).makeDirectory p d).2 = d₁ := congrArg Prod.snd hrun
  rw [hcall]
  rcases Disk.change_cases hrun with ⟨-, htree⟩ | ⟨-, hmade⟩
  · rw [htree]
    exact .refl d.tree
  · obtain ⟨place, -, hset⟩ := Tree.bind_eq_ok.mp hmade
    split at hset
    · rename_i hfree
      have hnone : d.tree.get? place = none := by simpa [Tree.isFree] using hfree
      have hroot : place ≠ .root := by
        rintro rfl
        simp at hnone
      rw [← Except.ok.inj hset]
      constructor
      · intro q e hq
        rw [Tree.get?_set _ _ _ _ hroot, if_neg, hq]
        rintro rfl
        rw [hnone] at hq
        cases hq
      · intro q bytes hq
        rw [Tree.get?_set _ _ _ _ hroot] at hq
        split at hq
        · cases hq
        · exact hq
    · cases hset

theorem acceptExisting (p : Path) (fault : Fault) :
    AddsDirectories machine depth (Files.acceptExisting (Disk.calls machine) p fault) := by
  refine .bind (.look p) fun found => ?_
  split
  · exact .pure _
  · exact .pure _

theorem makeBelow (p : Path) :
    AddsDirectories machine depth (Files.makeBelow (Disk.calls machine) p) := by
  refine .bind (.makeDirectory p) fun outcome => ?_
  split
  · exact .pure _
  · split
    · exact .pure _
    · exact .acceptExisting p _

/-- Every name of the path may make calls nest by one more. -/
theorem ensureNames (names : List String) (depth : Nat) :
    AddsDirectories machine (depth + names.length)
      (Files.ensureNames (Disk.calls machine) depth names) := by
  induction names generalizing depth with
  | nil =>
    refine .bind (.enter depth) fun _ => .bind (.makeDirectory .root) fun outcome => ?_
    split
    · exact .pure _
    · exact .acceptExisting .root _
  | cons name above ih =>
    refine .bind ((enter depth).mono (Nat.le_add_right _ _)) fun _ => ?_
    refine .bind (.makeDirectory _) fun outcome => ?_
    split
    · exact .pure _
    · split
      · have hdeeper : depth + 1 + above.length = depth + (name :: above).length := by
          rw [List.length_cons, Nat.add_assoc, Nat.add_comm 1]
        refine .bind (hdeeper ▸ ih (depth + 1)) fun outcome => ?_
        split
        · exact .pure _
        · exact .makeBelow _
      · exact .acceptExisting _ _

theorem ensureDirectory (p : Path) :
    AddsDirectories machine p.names.length (Files.ensureDirectory (Disk.calls machine) p) := by
  have hnames := @ensureNames machine p.names.reverse 0
  rwa [List.length_reverse, Nat.zero_add] at hnames

end AddsDirectories

/-! ## Files -/

/-- A file was saved under a path: the path leads to the place, no directory stood there, and
nothing else has changed. -/
structure IsSaved (t u : Tree) (p : Path) (bytes : List UInt8) (place : Path) : Prop where
  walk : t.walk p = .ok place
  noDirectory : t.get? place ≠ some .directory
  get? : ∀ q, u.get? q = if q = place then some (.file bytes) else t.get? q

theorem IsSaved.hasSaved {t u : Tree} {p place : Path} {bytes : List UInt8}
    (h : IsSaved t u p bytes place) : t.HasSaved u place bytes :=
  .of_get?_eq h.noDirectory h.get?

namespace Tree

variable {t u : Tree}

theorem ne_root_of_get? {t : Tree} {p : Path} (h : t.get? p ≠ some .directory) : p ≠ .root := by
  rintro rfl
  exact h (get?_root t)

/-- Writing saves a file. -/
theorem isSaved_of_write {p : Path} {bytes : List UInt8} (h : t.write p bytes = .ok u) :
    ∃ place, IsSaved t u p bytes place := by
  obtain ⟨place, hwalk, hset⟩ := bind_eq_ok.mp h
  split at hset
  · cases hset
  · rename_i hplace
    have hdirectory : t.get? place ≠ some .directory := hplace
    refine ⟨place, hwalk, hdirectory, fun q => ?_⟩
    rw [← Except.ok.inj hset]
    exact get?_set t place q _ (ne_root_of_get? hdirectory)

/-- Writing changes no way. -/
theorem walk_of_write {p q place : Path} {bytes : List UInt8} (h : t.write p bytes = .ok u)
    (hwalk : t.walk q = .ok place) : u.walk q = .ok place := by
  obtain ⟨_, hsaved⟩ := isSaved_of_write h
  exact walk_of_keepsDirectories hsaved.hasSaved.keepsDirectories hwalk

/-- A file that was moved has left its place for the other one, where no directory stood. -/
theorem get?_of_rename {source target place : Path} {bytes : List UInt8}
    (hsource : t.walk source = .ok place) (hfile : t.get? place = some (.file bytes))
    (h : t.rename source target = .ok u) :
    ∃ newPlace, t.walk target = .ok newPlace ∧ t.get? newPlace ≠ some .directory ∧
      ∀ q, u.get? q =
        if q = newPlace then some (.file bytes) else if q = place then none else t.get? q := by
  obtain ⟨oldPlace, hold, h⟩ := bind_eq_ok.mp h
  cases hsource.symm.trans hold
  obtain ⟨newPlace, hnew, h⟩ := bind_eq_ok.mp h
  have hup : target.name ≠ Path.upName := by
    intro heq
    simp only [if_pos heq] at h
    cases h
  simp only [if_neg hup, hfile] at h
  have hdirectory : t.get? newPlace ≠ some .directory := by
    intro hplace
    rw [hplace] at h
    cases h
  have hset : u = (t.erase place).set newPlace (.file bytes) := by
    split at h
    · cases h
    · cases h
    · rename_i heq _
      cases heq
      exact (Except.ok.inj h).symm
  have hplace : t.get? place ≠ some .directory := by simp [hfile]
  refine ⟨newPlace, hnew, hdirectory, fun q => ?_⟩
  rw [hset, get?_set _ _ _ _ (ne_root_of_get? hdirectory),
    get?_erase _ _ _ (ne_root_of_get? hplace)]

/-! ### Temporary files -/

/-- A file stands where nothing stood, and nothing else has changed. -/
structure HasNew (t u : Tree) (place : Path) (bytes : List UInt8) : Prop where
  wasFree : t.get? place = none
  get? : ∀ q, u.get? q = if q = place then some (.file bytes) else t.get? q

namespace HasNew

variable {place p : Path} {bytes : List UInt8} (h : t.HasNew u place bytes)

include h

theorem keepsDirectories : t.KeepsDirectories u := by
  intro q hq
  rw [h.get?, if_neg, hq]
  rintro rfl
  rw [h.wasFree] at hq
  cases hq

theorem keepsDirectories_symm : u.KeepsDirectories t := by
  intro q hq
  rw [h.get?] at hq
  split at hq
  · cases hq
  · exact hq

theorem get?_place : u.get? place = some (.file bytes) := by rw [h.get?, if_pos rfl]

/-- Removing the new file brings the tree back to what it was. -/
theorem get?_remove (hwalk : u.walk p = .ok place) (q : Path) : (u.remove p).get? q = t.get? q := by
  have hplace : u.get? place ≠ some .directory := by simp [h.get?_place]
  rw [remove, hwalk, get?_erase _ _ _ (ne_root_of_get? hplace), h.get?]
  split
  · rename_i heq
    rw [heq, h.wasFree]
  · rfl

/-- Writing to the new file changes its content. -/
theorem of_write {v : Tree} {more : List UInt8} (hwalk : u.walk p = .ok place)
    (hwrite : u.write p more = .ok v) : t.HasNew v place more := by
  obtain ⟨place', hsaved⟩ := isSaved_of_write hwrite
  cases hwalk.symm.trans hsaved.walk
  refine ⟨h.wasFree, fun q => ?_⟩
  rw [hsaved.get?, h.get?]
  split
  · rfl
  · rfl

/-- Moving the new file saves it where it goes. -/
theorem isSaved_of_rename {v : Tree} {target : Path} (hwalk : u.walk p = .ok place)
    (hrename : u.rename p target = .ok v) : ∃ newPlace, IsSaved t v target bytes newPlace := by
  obtain ⟨newPlace, hnew, hdirectory, hget⟩ := get?_of_rename hwalk h.get?_place hrename
  refine ⟨newPlace, walk_of_keepsDirectories h.keepsDirectories_symm hnew, ?_, fun q => ?_⟩
  · exact fun hplace => hdirectory (h.keepsDirectories newPlace hplace)
  · rw [hget, h.get?]
    by_cases hq : q = newPlace
    · rw [if_pos hq, if_pos hq]
    · rw [if_neg hq, if_neg hq]
      split
      · rename_i heq
        rw [heq, h.wasFree]
      · rfl

end HasNew

/-- A file is made where nothing stands. -/
theorem hasNew_of_createFile {p : Path} (h : t.createFile p = .ok u) :
    ∃ place, t.HasNew u place [] ∧ u.walk p = .ok place := by
  obtain ⟨place, hwalk, hset⟩ := bind_eq_ok.mp h
  split at hset
  · rename_i hfree
    have hnone : t.get? place = none := by simpa [isFree] using hfree
    have hplace : t.get? place ≠ some .directory := by simp [hnone]
    have hnew : t.HasNew u place [] := by
      refine ⟨hnone, fun q => ?_⟩
      rw [← Except.ok.inj hset]
      exact get?_set t place q _ (ne_root_of_get? hplace)
    exact ⟨place, hnew, walk_of_keepsDirectories hnew.keepsDirectories hwalk⟩
  · cases hset

end Tree

/-- A temporary file is made where nothing stood, or nothing is made. -/
theorem createTemporary_cases {directory : Path} {before after : String} {d d₁ : Disk}
    {outcome : Except Breakdown (Except Fault Path)}
    (h : (Disk.calls machine).createTemporary directory before after d = (outcome, d₁)) :
    ((∃ fault, outcome = .ok (.error fault)) ∧ d₁.tree = d.tree) ∨
      ∃ temporary, outcome = .ok (.ok temporary) ∧
        temporary = directory.child (d.tree.freshName directory d.tag before after) ∧
        d.tree.createFile temporary = .ok d₁.tree := by
  obtain ⟨made, rfl, hmake⟩ :=
    Disk.exists_of_returning (Disk.createTemporary directory before after) h
  unfold Disk.createTemporary at hmake
  generalize directory.child (d.tree.freshName directory d.tag before after) = p at hmake ⊢
  rcases hrun : Disk.change [p] (fun t => t.createFile p) d with ⟨created, d₂⟩
  simp only [hrun] at hmake
  cases hmake
  rcases Disk.change_cases hrun with ⟨⟨fault, rfl⟩, htree⟩ | ⟨rfl, hcreated⟩
  · exact .inl ⟨⟨fault, rfl⟩, htree⟩
  · exact .inr ⟨p, rfl, rfl, hcreated⟩

/-- Replacing a file in one step leaves the tree as it was, or saves the file. Either way the
temporary file is gone, whatever a refused write has left in it. -/
theorem replaceFile_cases {p : Path} {bytes : List UInt8} {d d₁ : Disk}
    {outcome : Except Breakdown (Except Fault Unit)}
    (h : replaceFile (Disk.calls machine) p bytes d = (outcome, d₁)) :
    ((∃ fault, outcome = .ok (.error fault)) ∧ ∀ q, d₁.tree.get? q = d.tree.get? q) ∨
      (outcome = .ok (.ok ()) ∧ ∃ place, IsSaved d.tree d₁.tree p bytes place) := by
  unfold replaceFile at h
  obtain ⟨b, -, hbroke⟩ | ⟨made, d₂, hmake, h⟩ := bind_cases h
  · cases hbroke
  rcases createTemporary_cases hmake with ⟨⟨fault, hfault⟩, htree⟩ | ⟨temporary, hmade, -, hcreated⟩
  · cases hfault
    cases h
    exact .inl ⟨⟨fault, rfl⟩, fun q => by rw [htree]⟩
  cases hmade
  obtain ⟨place, hnew, hwalk⟩ := Tree.hasNew_of_createFile hcreated
  obtain ⟨b, -, hbroke⟩ | ⟨written, d₃, hwrite, h⟩ := bind_cases h
  · cases hbroke
  rcases write_cases hwrite with
    ⟨⟨fault, hfault⟩, htree | ⟨left, -, hleft⟩⟩ | ⟨hok, hwritten⟩
  · cases hfault
    cases h
    rw [← htree] at hnew hwalk
    exact .inl ⟨⟨fault, rfl⟩, hnew.get?_remove hwalk⟩
  · cases hfault
    cases h
    have hnew := hnew.of_write hwalk hleft
    exact .inl ⟨⟨fault, rfl⟩, hnew.get?_remove (Tree.walk_of_write hleft hwalk)⟩
  cases hok
  have hnew := hnew.of_write hwalk hwritten
  have hwalk := Tree.walk_of_write hwritten hwalk
  obtain ⟨b, -, hbroke⟩ | ⟨renamed, d₄, hrename, h⟩ := bind_cases h
  · cases hbroke
  obtain ⟨moved, hmoved, hchange⟩ :=
    Disk.exists_of_returning (Disk.change [temporary, p] fun t => t.rename temporary p) hrename
  cases hmoved
  rcases Disk.change_cases hchange with ⟨⟨fault, rfl⟩, htree⟩ | ⟨rfl, hmoved⟩
  · cases h
    rw [← htree] at hnew hwalk
    exact .inl ⟨⟨fault, rfl⟩, hnew.get?_remove hwalk⟩
  · cases h
    exact .inr ⟨rfl, hnew.isSaved_of_rename hwalk hmoved⟩

/-- Saving a file saves it, or leaves the tree as it was, or, if it is done in place, leaves what a
refused write has put into the file. -/
theorem saveFile_cases {atomic : Bool} {p : Path} {bytes : List UInt8} {d d₁ : Disk}
    {outcome : Except Breakdown (Except Fault Unit)}
    (h : saveFile (Disk.calls machine) atomic p bytes d = (outcome, d₁)) :
    ((∃ fault, outcome = .ok (.error fault)) ∧
        ((∀ q, d₁.tree.get? q = d.tree.get? q) ∨ atomic = false ∧ ∃ left,
          machine.torn bytes = some left ∧ ∃ place, IsSaved d.tree d₁.tree p left place)) ∨
      (outcome = .ok (.ok ()) ∧ ∃ place, IsSaved d.tree d₁.tree p bytes place) := by
  cases atomic with
  | true => exact (replaceFile_cases h).imp_left fun hfault => ⟨hfault.1, .inl hfault.2⟩
  | false =>
    rcases write_cases h with ⟨hfault, htree | ⟨left, htorn, hleft⟩⟩ | ⟨hok, hwritten⟩
    · exact .inl ⟨hfault, .inl fun q => by rw [htree]⟩
    · exact .inl ⟨hfault, .inr ⟨rfl, left, htorn, Tree.isSaved_of_write hleft⟩⟩
    · exact .inr ⟨hok, Tree.isSaved_of_write hwritten⟩

/-- In a resolved directory a file is saved under its name. Two dots are not the name of a file:
they lead to a directory. -/
theorem IsSaved.place_eq_child {t u : Tree} {directory place : Path} {name : String}
    {bytes : List UInt8} (h : IsSaved t u (directory.child name) bytes place)
    (hdirectory : directory.IsResolved) : place = directory.child name := by
  by_cases hname : name = Path.upName
  · obtain ⟨here, hwalk, hstep⟩ :=
      Tree.bind_eq_ok.mp ((Tree.walk_child t directory name).symm.trans h.walk)
    have hup : place = here.parent := by
      rw [Tree.step, Tree.get?_of_step hstep, if_pos hname] at hstep
      exact (Except.ok.inj hstep).symm
    refine absurd ?_ h.noDirectory
    rw [hup, Tree.eq_of_walk hdirectory hwalk]
    exact Tree.get?_parent_of_walk hdirectory hwalk
  · exact Tree.eq_of_walk (hdirectory.child hname) h.walk

end Files

end ModelSchemas

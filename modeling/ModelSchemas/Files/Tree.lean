import ModelSchemas.Files.Fault

/-!
# File trees

What stands where: a finite map from paths to files and directories, with the root always a
directory. A path leads somewhere if every name but the last stands for a directory; each operation
gives the changed tree or the kind of fault that stood in its way.

Symbolic and hard links are not modelled: a place has one path without two dots, and a file has one
place. Nor does a tree know of permissions, of a working directory that is gone, or of paths that
cannot be resolved; what goes wrong for such reasons is up to the machine that carries calls out.
-/

namespace ModelSchemas

namespace Files

/-- What stands at a path. -/
inductive Entry where
  | file (bytes : List UInt8)
  | directory
deriving DecidableEq, Repr

/-- Whether an entry is a directory. -/
def Entry.isDirectory : Entry → Bool
  | directory => true
  | file _ => false

/-- The files and directories below the root. -/
structure Tree where
  entries : List (Path × Entry)

namespace Tree

/-- The tree with nothing below its root. -/
def empty : Tree := ⟨[]⟩

/-- What stands at a path without two dots. -/
def get? (t : Tree) (p : Path) : Option Entry :=
  if p = .root then some .directory else t.entries.lookup p

/-- Whether nothing stands at a path. -/
def isFree (t : Tree) (p : Path) : Bool := (t.get? p).isNone

/-- Entries without those at a path. -/
def without (p : Path) (entries : List (Path × Entry)) : List (Path × Entry) :=
  entries.filter fun entry => entry.1 ≠ p

/-- The tree with an entry at a path, whatever stood there. -/
def set (t : Tree) (p : Path) (e : Entry) : Tree := ⟨(p, e) :: without p t.entries⟩

/-- The tree with nothing at a path. -/
def erase (t : Tree) (p : Path) : Tree := ⟨without p t.entries⟩

/-! ## Finding the way -/

/-- The largest number of bytes in a name. -/
def nameLimit : Nat := 255

/-- One name further. -/
def step (t : Tree) (here : Path) (name : String) : Except FaultKind Path :=
  match t.get? here with
  | none => .error .notFound
  | some (.file _) => .error .notDirectory
  | some .directory =>
    if name = Path.upName then .ok here.parent
    else if nameLimit < name.utf8ByteSize then .error .nameTooLong
    else .ok (here.child name)

/-- Where a path leads. There need not be anything. -/
def walk (t : Tree) (p : Path) : Except FaultKind Path := p.names.foldlM t.step .root

/-- What is found where a path leads. -/
def look (t : Tree) (p : Path) : Option Entry :=
  match t.walk p with
  | .ok place => t.get? place
  | .error _ => none

/-! ## Changes -/

/-- Makes a directory where nothing stands. -/
def makeDirectory (t : Tree) (p : Path) : Except FaultKind Tree := do
  let place ← t.walk p
  if t.isFree place then return t.set place .directory else .error .alreadyExists

/-- Makes an empty file where nothing stands. -/
def createFile (t : Tree) (p : Path) : Except FaultKind Tree := do
  let place ← t.walk p
  if t.isFree place then return t.set place (.file []) else .error .alreadyExists

/-- Gives a file its content, making it if need be. -/
def write (t : Tree) (p : Path) (bytes : List UInt8) : Except FaultKind Tree := do
  let place ← t.walk p
  match t.get? place with
  | some .directory => .error .isDirectory
  | _ => return t.set place (.file bytes)

/-- Moves a file to another path in one step. It takes the place of a file that stands there. -/
def rename (t : Tree) (source target : Path) : Except FaultKind Tree := do
  let oldPlace ← t.walk source
  let newPlace ← t.walk target
  if target.name = Path.upName then .error .busy
  match t.get? oldPlace, t.get? newPlace with
  | none, _ => .error .notFound
  | some (.file _), some .directory => .error .isDirectory
  | some entry, _ => return (t.erase oldPlace).set newPlace entry

/-- Removes what stands at a path. -/
def remove (t : Tree) (p : Path) : Tree :=
  match t.walk p with
  | .ok place => t.erase place
  | .error _ => t

/-- A name between two texts under which nothing stands in a directory: the tag, with as many
underscores after it as are needed. -/
def freshName (t : Tree) (directory : Path) (tag before after : String) : String :=
  let names := (List.range (t.entries.length + 1)).map fun n =>
    before ++ tag ++ String.ofList (List.replicate n '_') ++ after
  (names.find? fun name => t.isFree (directory.child name)).getD (before ++ tag ++ after)

/-! ## Views -/

@[simp] theorem get?_root (t : Tree) : t.get? .root = some .directory := by simp [get?]

/-- Leaving out one path changes what is found under it and nothing else. -/
theorem lookup_without (entries : List (Path × Entry)) (p q : Path) :
    (without p entries).lookup q = if q = p then none else entries.lookup q := by
  unfold without
  induction entries with
  | nil => simp
  | cons entry rest ih =>
    obtain ⟨r, e⟩ := entry
    by_cases hr : r = p
    · rw [List.filter_cons_of_neg (by simp [hr]), ih]
      by_cases hq : q = p
      · simp [hq]
      · have hqr : (q == r) = false := by simp [hr, hq]
        simp [hq, List.lookup_cons, hqr]
    · rw [List.filter_cons_of_pos (by simp [hr])]
      by_cases hqr : q = r
      · subst hqr
        simp [hr]
      · have hqr' : (q == r) = false := by simpa using hqr
        simp only [List.lookup_cons, hqr']
        exact ih

/-- Setting an entry changes what stands at its path and nowhere else. -/
theorem get?_set (t : Tree) (p q : Path) (e : Entry) (h : p ≠ .root) :
    (t.set p e).get? q = if q = p then some e else t.get? q := by
  by_cases hq : q = p
  · subst hq
    simp [get?, set, h]
  · have hqp : (q == p) = false := by simpa using hq
    simp [get?, set, List.lookup_cons, hqp, hq, lookup_without]

/-- Erasing a path removes what stands there and nothing else. -/
theorem get?_erase (t : Tree) (p q : Path) (h : p ≠ .root) :
    (t.erase p).get? q = if q = p then none else t.get? q := by
  by_cases hq : q = p
  · subst hq
    simp [get?, erase, h, lookup_without]
  · simp [get?, erase, hq, lookup_without]

end Tree

end Files

end ModelSchemas

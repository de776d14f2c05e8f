import ModelSchemas.Files.Tree

/-!
# File calls

The calls by which a program touches files, as a record, so that what the program does with them is
the same on the files of a machine and on a file tree held as a value. `Disk.calls` is the record
for file trees; a disk may also be made to refuse calls that its tree would allow, and the machine
that it belongs to may break down.
-/

namespace ModelSchemas

namespace Files

/-- The calls. A path is resolved before it is used for long, and a call that nests says how deep it
is, which is where a program may break down. A temporary file is made in a directory under a fresh
name that starts and ends with two given texts; removing one never fails. -/
structure Calls (m : Type → Type) where
  resolve : Path → m Path
  enter : Nat → m Unit
  look : Path → m (Option Entry)
  makeDirectory : Path → m (Except Fault Unit)
  createTemporary : Path → String → String → m (Except Fault Path)
  write : Path → List UInt8 → m (Except Fault Unit)
  rename : Path → Path → m (Except Fault Unit)
  remove : Path → m Unit

/-! ## Disks -/

/-- A file tree, what becomes of the next calls that would change it, and the tag in the names of
temporary files. Each change uses up one item of `refusals`: a fault refuses it whatever the tree
says, and `none` leaves it to the tree, as does the end of the list. -/
structure Disk where
  tree : Tree
  refusals : List (Option Fault)
  tag : String

/-- What else a machine makes of calls: what a refused write leaves in the file instead of the bytes
that it was to write, if it leaves anything; which paths can be resolved; and how deep calls may
nest, if there is an end to it. -/
structure Machine where
  torn : List UInt8 → Option (List UInt8)
  resolves : Path → Bool
  nesting : Option Nat

/-- A machine that never breaks down, and on which a refused write leaves nothing. -/
def Machine.sound : Machine := ⟨fun _ => none, fun _ => true, none⟩

/-- What a program does on a disk: it comes to a result or breaks down, and leaves the disk in some
state either way. -/
abbrev OnDisk : Type → Type := ExceptT Breakdown (StateM Disk)

namespace Disk

/-- A disk that refuses nothing that its tree allows. -/
def ofTree (tree : Tree) (tag : String) : Disk := ⟨tree, [], tag⟩

/-- Changes the tree, unless the change is refused. A refused change leaves the tree alone. -/
def change (paths : List Path) (edit : Tree → Except FaultKind Tree) (d : Disk) :
    Except Fault Unit × Disk :=
  let later := { d with refusals := d.refusals.tail }
  match d.refusals.head? with
  | some (some fault) => (.error fault, later)
  | _ =>
    match edit d.tree with
    | .error kind => (.error ⟨kind, paths⟩, later)
    | .ok tree => (.ok (), { later with tree })

/-- Makes a temporary file in a directory. -/
def createTemporary (directory : Path) (before after : String) (d : Disk) :
    Except Fault Path × Disk :=
  let p := directory.child (d.tree.freshName directory d.tag before after)
  let (outcome, d) := d.change [p] fun t => t.createFile p
  (outcome.map fun _ => p, d)

/-- Gives a file its content. If that is refused, the file may be left with other bytes. -/
def write (machine : Machine) (p : Path) (bytes : List UInt8) (d : Disk) :
    Except Fault Unit × Disk :=
  match d.change [p] fun t => t.write p bytes with
  | (.ok (), after) => (.ok (), after)
  | (.error fault, after) =>
    match (machine.torn bytes).map (after.tree.write p) with
    | some (.ok tree) => (.error fault, { after with tree })
    | _ => (.error fault, after)

/-- A call that comes to a result. -/
def returning {α : Type} (call : Disk → α × Disk) : OnDisk α :=
  fun d => (.ok (call d).1, (call d).2)

/-- The calls on the disk of a machine. -/
def calls (machine : Machine) : Calls OnDisk where
  resolve p := if machine.resolves p then return p.resolve else throw (.unresolvable p)
  enter depth := if machine.nesting.all (depth ≤ ·) then return () else throw .tooDeep
  look p := returning fun d => (d.tree.look p, d)
  makeDirectory p := returning (change [p] fun t => t.makeDirectory p)
  createTemporary directory before after := returning (createTemporary directory before after)
  write p bytes := returning (write machine p bytes)
  rename source target := returning (change [source, target] fun t => t.rename source target)
  remove p := returning fun d => ((), { d with tree := d.tree.remove p })

end Disk

end Files

end ModelSchemas

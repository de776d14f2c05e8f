import ModelSchemas.Files.Calls

/-!
# Saving files

Three ways to change a directory: to make it exist with all that stand above it, to write a file in
place, and to replace a file by a new one in a single step, so that whoever looks sees the old
content or the new and never a part. A replacement that fails leaves no temporary file behind.

A missing directory waits for the one above it, so that calls nest as deep as directories are
missing, and one that nests too deep breaks down. Nothing here is prepared for that.
-/

namespace ModelSchemas

namespace Files

variable {m : Type → Type} [Monad m]

/-! ## Directories -/

/-- A refused directory is no fault if it is there. -/
def acceptExisting (fs : Calls m) (p : Path) (fault : Fault) : m (Except Fault Unit) := do
  match ← fs.look p with
  | some .directory => return .ok ()
  | _ => return .error fault

/-- Makes a directory whose parent was missing and has been made. -/
def makeBelow (fs : Calls m) (p : Path) : m (Except Fault Unit) := do
  match ← fs.makeDirectory p with
  | .ok () => return .ok ()
  | .error fault =>
    if fault.kind = .notFound then return .error fault else acceptExisting fs p fault

/-- Makes the directory with the given names, innermost first, and those above it as needed. So many
directories wait for it already as `depth` says. -/
def ensureNames (fs : Calls m) (depth : Nat) : List String → m (Except Fault Unit)
  | [] => do
    fs.enter depth
    match ← fs.makeDirectory .root with
    | .ok () => return .ok ()
    | .error fault => acceptExisting fs .root fault
  | name :: above => do
    fs.enter depth
    let p : Path := ⟨(name :: above).reverse⟩
    match ← fs.makeDirectory p with
    | .ok () => return .ok ()
    | .error fault =>
      if fault.kind = .notFound then
        match ← ensureNames fs (depth + 1) above with
        | .error fault => return .error fault
        | .ok () => makeBelow fs p
      else acceptExisting fs p fault

/-- Makes a directory and those above it, unless they are there. -/
def ensureDirectory (fs : Calls m) (p : Path) : m (Except Fault Unit) :=
  ensureNames fs 0 p.names.reverse

/-! ## Files -/

/-- Replaces a file in one step. -/
def replaceFile (fs : Calls m) (p : Path) (bytes : List UInt8) : m (Except Fault Unit) := do
  match ← fs.createTemporary p.parent s!".{p.name}." ".tmp" with
  | .error fault => return .error fault
  | .ok temporary =>
    match ← fs.write temporary bytes with
    | .error fault =>
      fs.remove temporary
      return .error fault
    | .ok () =>
      match ← fs.rename temporary p with
      | .error fault =>
        fs.remove temporary
        return .error fault
      | .ok () => return .ok ()

/-- Writes a file, in one step if `atomic`. Its directory has to be there. -/
def saveFile (fs : Calls m) (atomic : Bool) (p : Path) (bytes : List UInt8) :
    m (Except Fault Unit) :=
  if atomic then replaceFile fs p bytes else fs.write p bytes

end Files

end ModelSchemas

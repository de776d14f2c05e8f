import ModelSchemas.Files.Path
import ModelSchemas.Text.Quoted

/-!
# Faults of file calls

Why a call that touches files was refused, by its number, its text and the paths it was about. A
program that makes such calls is prepared for faults. It is not prepared for a breakdown, which ends
it where it stands.
-/

namespace ModelSchemas

namespace Files

/-- What stood in the way. -/
inductive FaultKind where
  | notFound
  | permissionDenied
  | busy
  | alreadyExists
  | notDirectory
  | isDirectory
  | noSpace
  | nameTooLong
  | other (code : Nat) (text : String)
deriving DecidableEq, Repr

namespace FaultKind

/-- The number of a kind of fault. -/
def code : FaultKind → Nat
  | notFound => 2
  | permissionDenied => 13
  | busy => 16
  | alreadyExists => 17
  | notDirectory => 20
  | isDirectory => 21
  | noSpace => 28
  | nameTooLong => 36
  | other code _ => code

/-- The kind of fault with a number. One that is not known keeps its text. -/
def ofCode (code : Nat) (text : String) : FaultKind :=
  match code with
  | 2 => notFound
  | 13 => permissionDenied
  | 16 => busy
  | 17 => alreadyExists
  | 20 => notDirectory
  | 21 => isDirectory
  | 28 => noSpace
  | 36 => nameTooLong
  | _ => other code text

/-- The text of a kind of fault. -/
def text : FaultKind → String
  | notFound => "No such file or directory"
  | permissionDenied => "Permission denied"
  | busy => "Device or resource busy"
  | alreadyExists => "File exists"
  | notDirectory => "Not a directory"
  | isDirectory => "Is a directory"
  | noSpace => "No space left on device"
  | nameTooLong => "File name too long"
  | other _ text => text

/-- The class that a kind of fault belongs to, as reports name it. -/
def className : FaultKind → String
  | notFound => "FileNotFoundError"
  | permissionDenied => "PermissionError"
  | alreadyExists => "FileExistsError"
  | notDirectory => "NotADirectoryError"
  | isDirectory => "IsADirectoryError"
  | _ => "OSError"

end FaultKind

/-- A refused call: why, and the paths it names. -/
structure Fault where
  kind : FaultKind
  paths : List Path
deriving DecidableEq, Repr

/-- The wording of a fault. -/
def Fault.message (f : Fault) : String :=
  let shown := f.paths.map fun p => String.ofList (Text.quoteShown p.render.toList)
  let places := if shown.isEmpty then "" else ": " ++ String.intercalate " -> " shown
  s!"[Errno {f.kind.code}] {f.kind.text}" ++ places

/-- What ends a program where it stands: a path that cannot be resolved, since its links lead around
in a circle or the directory that it starts at is gone, or calls that nest too deep. -/
inductive Breakdown where
  | unresolvable (p : Path)
  | tooDeep
deriving DecidableEq, Repr

end Files

end ModelSchemas

import ModelSchemas.CommandLine.Command
import Std.Time

/-!
# The program

The command on the files of the machine it runs on. This module only carries calls out and turns the
machine's errors into faults; what is done, and in which order, is decided elsewhere.
-/

namespace ModelSchemas

namespace Program

open Files

/-! ## Faults -/

/-- The number of an error, without the sign that some calls give it. -/
def codeOf (code : UInt32) : Nat :=
  if code.toNat < 0x80000000 then code.toNat else 0x100000000 - code.toNat

/-- The kind of fault behind an error of the machine. -/
def faultKind (error : IO.Error) : FaultKind :=
  match error with
  | .noFileOrDirectory _ _ _ => .notFound
  | .alreadyExists _ code text | .invalidArgument _ code text | .permissionDenied _ code text
  | .resourceExhausted _ code text | .inappropriateType _ code text | .noSuchThing _ code text =>
    .ofCode (codeOf code) text
  | .interrupted _ code text => .ofCode (codeOf code) text
  | .otherError code text | .resourceBusy code text | .resourceVanished code text
  | .unsupportedOperation code text | .hardwareFault code text
  | .unsatisfiedConstraints code text | .illegalOperation code text | .protocolError code text
  | .timeExpired code text => .ofCode (codeOf code) text
  | .unexpectedEof => .other 5 "Input/output error"
  | .userError text => .other 5 text

/-- Carries out a call that is about some paths. -/
def attempt {α : Type} (paths : List Path) (action : IO α) : IO (Except Fault α) := do
  match ← action.toBaseIO with
  | .ok a => return .ok a
  | .error error => return .error ⟨faultKind error, paths⟩

/-! ## Calls -/

/-- The characters of the random part of a temporary name. -/
def tagLetters : List Char := "abcdefghijklmnopqrstuvwxyz0123456789_".toList

/-- A random part of a temporary name. -/
def randomTag : IO String := do
  let bytes ← IO.getRandomBytes 8
  return String.ofList (bytes.toList.map fun b => tagLetters.getD (b.toNat % tagLetters.length) '_')

/-- Makes a temporary file, trying other names while a name is taken. -/
def createTemporary (directory : Path) (before after : String) : Nat → IO (Except Fault Path)
  | 0 => return .error ⟨.alreadyExists, [directory]⟩
  | tries + 1 => do
    let p := directory.child (before ++ (← randomTag) ++ after)
    match ← attempt [p] (IO.FS.Handle.mk p.render .writeNew) with
    | .ok _ => return .ok p
    | .error fault =>
      if fault.kind = .alreadyExists then createTemporary directory before after tries
      else return .error fault

/-- What is found at a path. -/
def look (p : Path) : IO (Option Entry) := do
  match ← attempt [p] (IO.FS.readBinFile p.render) with
  | .ok bytes => return some (.file bytes.toList)
  | .error fault => return if fault.kind = .isDirectory then some .directory else none

/-- The calls on the files of the machine. Paths are resolved by their names alone, so that links
are left to the machine, and calls nest as deep as the machine lets them. -/
def calls : Calls IO where
  resolve p := return p.resolve
  enter _ := return ()
  look := look
  makeDirectory p := attempt [p] (IO.FS.createDir p.render)
  createTemporary directory before after := createTemporary directory before after 1000
  write p bytes := attempt [p] (IO.FS.writeBinFile p.render ⟨bytes.toArray⟩)
  rename source target := attempt [source, target] (IO.FS.rename source.render target.render)
  remove p := do
    let _ ← attempt [p] (IO.FS.removeFile p.render)

end Program

end ModelSchemas

open ModelSchemas in
/-- Runs the command in the current directory. -/
def main (arguments : List String) : IO UInt32 := do
  let base := Files.Path.root.follow (toString (← IO.currentDir))
  let now ← Std.Time.DateTime.now
  let outcome ← CommandLine.run Program.calls base (now.format "uuuu-MM-dd'T'HH:mm:ssxx") arguments
  for entry in outcome.log do
    IO.eprintln (entry.line (now.format "HH:mm:ss"))
  if outcome.needsUsage then IO.eprint CommandLine.helpPage
  IO.print outcome.output
  return outcome.exitCode.number.toUInt32

import ModelSchemas.Text.Basic

/-!
# Paths

A path is the list of names on the way from the root. It is read from a text relative to a base;
empty names and single dots lead nowhere and are left out, while two dots lead back up and are kept
until the path is resolved.
-/

namespace ModelSchemas

namespace Files

/-- An absolute path. -/
structure Path where
  names : List String
deriving DecidableEq, Repr

namespace Path

/-- The root of all paths. -/
def root : Path := ⟨[]⟩

/-- The name that leads back up. -/
def upName : String := ".."

/-- The names in a text: the pieces between its slashes. -/
def namesOf (text : Text) : List String :=
  ((text.splitOn '/').filter fun piece => piece ≠ [] && piece ≠ ['.']).map String.ofList

/-- The path that a text gives as seen from a base. A text that starts with a slash starts at the
root. -/
def follow (base : Path) (text : String) : Path :=
  if text.toList.head? = some '/' then ⟨namesOf text.toList⟩
  else ⟨base.names ++ namesOf text.toList⟩

/-- The path of an entry of a directory. -/
def child (p : Path) (name : String) : Path := ⟨p.names ++ [name]⟩

/-- The path without its last name. -/
def parent (p : Path) : Path := ⟨p.names.dropLast⟩

/-- The last name. The root has none. -/
def name (p : Path) : String := p.names.getLastD ""

/-- The path as a text. -/
def render (p : Path) : String := "/" ++ String.intercalate "/" p.names

/-- One name after a path without two dots: two dots remove the last name. -/
def resolveName (p : Path) (name : String) : Path :=
  if name = upName then p.parent else p.child name

/-- The path without two dots. -/
def resolve (p : Path) : Path := p.names.foldl resolveName root

/-- The extension of the last name with its dot: what starts at the last dot, if that dot is neither
the first nor the last character. -/
def extension (p : Path) : String :=
  let reversed := p.name.toList.reverse
  let after := reversed.takeWhile (· ≠ '.')
  match reversed.drop after.length with
  | _ :: _ :: _ => if after.isEmpty then "" else String.ofList ('.' :: after.reverse)
  | _ => ""

@[simp] theorem names_child (p : Path) (name : String) : (p.child name).names = p.names ++ [name] :=
  rfl

@[simp] theorem parent_child (p : Path) (name : String) : (p.child name).parent = p := by
  simp [parent, child]

@[simp] theorem name_child (p : Path) (name : String) : (p.child name).name = name := by
  simp [Path.name]

end Path

end Files

end ModelSchemas

import ModelSchemas.Validation.Checked

/-!
# Assignment

An assignment to an attribute of an object has three outcomes. A value that the attribute does not
take leaves the object as it was. A value that it takes is stored; then the rules on the whole
object are checked, and when one is broken the stored value stays but the indexes do not follow.
-/

namespace ModelSchemas

/-- The object after an assignment, and the issues if it was not accepted. -/
structure Assigned (α : Type) where
  after : α
  issues : List Issue

namespace Assigned

variable {α : Type}

/-- Stores the value that `stored` checked, then checks the whole object. -/
def run (before : α) (stored : Checked α) (recheck : α → Checked α) : Assigned α :=
  match stored with
  | .rejected issues => ⟨before, issues⟩
  | .accepted next =>
    match recheck next with
    | .accepted indexed => ⟨indexed, []⟩
    | .rejected issues => ⟨next, issues⟩

end Assigned

end ModelSchemas

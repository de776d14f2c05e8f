import ModelSchemas.Diagnostics.Log

/-!
# The state of a generation pass

One pass over a data model keeps three records: the lines of the entity blocks, the enumerations
used so far with their values in the order of first use, and the entities emitted so far. Each
record only grows.
-/

namespace ModelSchemas

namespace Schema

/-- The records of one pass. -/
structure Pass where
  lines : List String
  enumUsage : List (String × List String)
  emitted : List String
deriving DecidableEq, Repr

namespace Pass

/-- The state in which a pass starts. -/
def empty : Pass := ⟨[], [], []⟩

/-- Whether the enumeration has been used. -/
def usesEnum (p : Pass) (name : String) : Bool := p.enumUsage.any fun e => e.1 = name

/-- Remembers an enumeration on its first use; a later use keeps the first entry. -/
def recordEnum (p : Pass) (name : String) (values : List String) : Pass :=
  if p.usesEnum name then p else { p with enumUsage := p.enumUsage ++ [(name, values)] }

/-- What recording an enumeration has to say. -/
def recordEnumLog (p : Pass) (name : String) : Log :=
  if p.usesEnum name then [] else [⟨.debug, "zodgen.state", s!"Enum '{name}' recorded as used."⟩]

/-- Whether the entity has been emitted. -/
def isEmitted (p : Pass) (name : String) : Bool := p.emitted.contains name

/-- Remembers that an entity has been emitted. -/
def markEmitted (p : Pass) (name : String) : Pass :=
  if p.isEmitted name then p else { p with emitted := p.emitted ++ [name] }

/-- Appends lines to the buffer. -/
def append (p : Pass) (lines : List String) : Pass := { p with lines := p.lines ++ lines }

@[simp] theorem lines_append (p : Pass) (lines : List String) :
    (p.append lines).lines = p.lines ++ lines := rfl

@[simp] theorem enumUsage_append (p : Pass) (lines : List String) :
    (p.append lines).enumUsage = p.enumUsage := rfl

@[simp] theorem isEmitted_append (p : Pass) (lines : List String) (name : String) :
    (p.append lines).isEmitted name = p.isEmitted name := rfl

@[simp] theorem lines_recordEnum (p : Pass) (name : String) (values : List String) :
    (p.recordEnum name values).lines = p.lines := by
  unfold recordEnum
  split <;> rfl

@[simp] theorem isEmitted_recordEnum (p : Pass) (name other : String) (values : List String) :
    (p.recordEnum name values).isEmitted other = p.isEmitted other := by
  unfold recordEnum
  split <;> rfl

@[simp] theorem lines_markEmitted (p : Pass) (name : String) :
    (p.markEmitted name).lines = p.lines := by
  unfold markEmitted
  split <;> rfl

@[simp] theorem enumUsage_markEmitted (p : Pass) (name : String) :
    (p.markEmitted name).enumUsage = p.enumUsage := by
  unfold markEmitted
  split <;> rfl

/-- The line buffer and the enumerations are kept apart. -/
theorem append_recordEnum (p : Pass) (lines : List String) (name : String) (values : List String) :
    (p.append lines).recordEnum name values = (p.recordEnum name values).append lines := by
  unfold recordEnum
  rw [show (p.append lines).usesEnum name = p.usesEnum name from rfl]
  split <;> rfl

@[simp] theorem isEmitted_markEmitted (p : Pass) (name other : String) :
    (p.markEmitted name).isEmitted other = (p.isEmitted other || other == name) := by
  unfold markEmitted
  split
  · rename_i h
    by_cases ho : other = name
    · simp [ho, h]
    · simp [ho]
  · by_cases ho : other = name <;> simp [isEmitted, ho]

end Pass

end Schema

end ModelSchemas

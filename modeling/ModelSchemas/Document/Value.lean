/-!
# Document values

What a document in JSON or YAML holds: null, truth values, whole and floating numbers, strings,
lists, and mappings with their keys in the order in which they first occur. A key that is written
again replaces the value at its first place.
-/

namespace ModelSchemas

namespace Document

/-- A value of a document. Whole numbers are unbounded. -/
inductive Value where
  | null
  | bool (b : Bool)
  | int (n : Int)
  | float (x : Float)
  | str (s : String)
  | list (items : List Value)
  | mapping (entries : List (String × Value))
deriving Inhabited

/-- The entries of a mapping, in order. -/
abbrev Entries := List (String × Value)

namespace Entries

/-- The value under `key`, if there is one. -/
def get? (entries : Entries) (key : String) : Option Value := entries.lookup key

/-- Whether `key` is present. -/
def has (entries : Entries) (key : String) : Bool := (entries.lookup key).isSome

/-- Sets the value under `key`: at its place if it is present, at the end if not. -/
def set (entries : Entries) (key : String) (value : Value) : Entries :=
  match entries with
  | [] => [(key, value)]
  | (k, v) :: rest => if k = key then (key, value) :: rest else (k, v) :: set rest key value

/-- The entries without those under `key`. -/
def erase (entries : Entries) (key : String) : Entries := entries.filter fun e => e.1 ≠ key

/-- The entries of `entries` with those of `other` set one after another. -/
def update (entries other : Entries) : Entries :=
  other.foldl (fun acc e => set acc e.1 e.2) entries

@[simp] theorem get?_nil (key : String) : get? [] key = none := rfl

theorem get?_cons (k : String) (v : Value) (rest : Entries) (key : String) :
    get? ((k, v) :: rest) key = if key = k then some v else get? rest key := by
  by_cases h : key = k
  · simp [get?, h]
  · have hb : (key == k) = false := by simpa using h
    simp [get?, List.lookup_cons, h, hb]

/-- Setting a key changes the value under that key and no other. -/
theorem get?_set (entries : Entries) (key other : String) (value : Value) :
    get? (set entries key value) other =
      if other = key then some value else get? entries other := by
  induction entries with
  | nil => simp [set, get?_cons]
  | cons e rest ih =>
    obtain ⟨k, v⟩ := e
    by_cases hk : k = key
    · subst hk
      simp only [set, if_true, get?_cons]
      split <;> rfl
    · simp only [set, hk, if_false, get?_cons, ih]
      split
      · rename_i h
        simp [h, hk]
      · rfl

end Entries

namespace Value

/-- The name of the kind of a value, as error messages give it. -/
def kindName : Value → String
  | null => "NoneType"
  | bool _ => "bool"
  | int _ => "int"
  | float _ => "float"
  | str _ => "str"
  | list _ => "list"
  | mapping _ => "dict"

/-- Whether a value says something: null, false, zero, and empty strings, lists and mappings do
not. -/
def isTruthy : Value → Bool
  | null => false
  | bool b => b
  | int n => n ≠ 0
  | float x => x != 0.0
  | str s => s ≠ ""
  | list items => !items.isEmpty
  | mapping entries => !entries.isEmpty

/-- The entries of a mapping. -/
def entries? : Value → Option Entries
  | mapping entries => some entries
  | _ => none

end Value

end Document

end ModelSchemas

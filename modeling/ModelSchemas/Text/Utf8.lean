import ModelSchemas.Decimal.Digits

/-!
# UTF-8

The bytes of a text, and the text of some bytes. Reading is strict: every character has to be
written in its shortest form, and half a surrogate pair is no character. A fault says which bytes
were no character and why.
-/

namespace ModelSchemas

namespace Utf8

/-- The bytes of a text. -/
def encode (s : String) : List UInt8 := s.toUTF8.toList

/-! ## Faults -/

/-- Why bytes are no character. -/
inductive Defect where
  | startByte
  | continuationByte
  | cutOff
deriving DecidableEq, Repr

/-- The wording of a defect. -/
def Defect.message : Defect → String
  | startByte => "invalid start byte"
  | continuationByte => "invalid continuation byte"
  | cutOff => "unexpected end of data"

/-- Bytes that are no character: where they start, how many they are, the first of them, and why. -/
structure Fault where
  position : Nat
  length : Nat
  first : UInt8
  defect : Defect
deriving DecidableEq, Repr

/-- The wording of a fault. -/
def Fault.message (f : Fault) : String :=
  let what :=
    if f.length = 1 then
      "byte 0x" ++ String.ofList (Decimal.hexDigits 2 f.first.toNat) ++
        s!" in position {f.position}"
    else s!"bytes in position {f.position}-{f.position + f.length - 1}"
  s!"'utf-8' codec can't decode {what}: {f.defect.message}"

/-! ## Reading -/

/-- What a first byte announces: the high bits of the character, and the closed ranges in which the
bytes after it have to lie. -/
def announced? (first : Nat) : Option (Nat × List (Nat × Nat)) :=
  let any : Nat × Nat := (0x80, 0xBF)
  if first < 0x80 then some (first, [])
  else if first < 0xC2 then none
  else if first < 0xE0 then some (first - 0xC0, [any])
  else if first = 0xE0 then some (0, [(0xA0, 0xBF), any])
  else if first = 0xED then some (0xD, [(0x80, 0x9F), any])
  else if first < 0xF0 then some (first - 0xE0, [any, any])
  else if first = 0xF0 then some (0, [(0x90, 0xBF), any, any])
  else if first < 0xF4 then some (first - 0xF0, [any, any, any])
  else if first = 0xF4 then some (4, [(0x80, 0x8F), any, any])
  else none

/-- Reads the bytes after a first byte. A defect comes with the number of bytes that were right. -/
def continuation (value count : Nat) :
    List (Nat × Nat) → List UInt8 → Except (Defect × Nat) (Nat × Nat)
  | [], _ => .ok (value, count)
  | _ :: _, [] => .error (.cutOff, count)
  | range :: ranges, byte :: bytes =>
    if range.1 ≤ byte.toNat && byte.toNat ≤ range.2 then
      continuation (value * 64 + byte.toNat % 64) (count + 1) ranges bytes
    else .error (.continuationByte, count)

/-- Reads one character that starts with `first`, with the number of bytes it takes. -/
def character (position : Nat) (first : UInt8) (bytes : List UInt8) : Except Fault (Char × Nat) :=
  match announced? first.toNat with
  | none => .error ⟨position, 1, first, .startByte⟩
  | some (high, ranges) =>
    match continuation high 1 ranges bytes with
    | .error (defect, count) => .error ⟨position, count, first, defect⟩
    | .ok (value, count) => .ok (Char.ofNat value, count)

/-- Reads all characters from a position on. -/
def decodeFrom (position : Nat) (bytes : List UInt8) : Except Fault Text :=
  match bytes with
  | [] => .ok []
  | first :: rest => do
    let (c, count) ← character position first rest
    let more ← decodeFrom (position + count) (rest.drop (count - 1))
    return c :: more
termination_by bytes.length
decreasing_by
  simp only [List.length_drop, List.length_cons]
  omega

/-- The text of some bytes. -/
def decode (bytes : List UInt8) : Except Fault Text := decodeFrom 0 bytes

end Utf8

namespace Text

/-- The text with each of the three ways to end a line made a line feed. -/
def unifyLineEnds : Text → Text
  | [] => []
  | '\r' :: '\n' :: rest => '\n' :: unifyLineEnds rest
  | c :: rest => (if c = '\r' then '\n' else c) :: unifyLineEnds rest

end Text

end ModelSchemas

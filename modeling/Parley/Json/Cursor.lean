import Parley.Json.Error

/-!
# A place in a JSON text

- `Cursor`: the bytes that are left and the place where they start.
- `Cursor.fault`, `Cursor.faultNext`: a refusal at that place, or at the byte after it.
- `Cursor.skipBlanks`, `readWord`: the smallest steps.
-/

namespace Parley.Json

/-- The start of a text. -/
def Place.start : Place := ⟨1, 0⟩

/-- The place after one more byte. -/
def Place.after (p : Place) (b : UInt8) : Place :=
  if b = 0x0A then ⟨p.line + 1, 0⟩ else ⟨p.line, p.column + 1⟩

/-- What is left of a text, and where it starts. -/
structure Cursor where
  rest : List UInt8
  place : Place
  deriving Repr

/-- The cursor before a whole text. -/
def Cursor.ofBytes (bs : List UInt8) : Cursor := ⟨bs, Place.start⟩

/-- The cursor after one more byte. -/
def Cursor.bump (c : Cursor) : Cursor :=
  match c.rest with
  | [] => c
  | b :: r => ⟨r, c.place.after b⟩

/-- A refusal because of what was read last. -/
def Cursor.fault (c : Cursor) (cause : Cause) : Error := ⟨cause, some c.place⟩

/-- A refusal because of the next byte, or of the end where there is none. -/
def Cursor.faultNext (c : Cursor) (cause : Cause) : Error := ⟨cause, some c.bump.place⟩

/-- The blanks of the format. -/
def isBlankByte (b : UInt8) : Bool :=
  b = 0x20 || b = 0x0A || b = 0x09 || b = 0x0D

/-- The first byte of `bs` that is no blank, with what follows it. -/
def skipBlanksFrom : List UInt8 → Place → Cursor
  | [], p => ⟨[], p⟩
  | b :: r, p => if isBlankByte b then skipBlanksFrom r (p.after b) else ⟨b :: r, p⟩

/-- The cursor before the next byte that is no blank. -/
def Cursor.skipBlanks (c : Cursor) : Cursor :=
  skipBlanksFrom c.rest c.place

/-- Reads the bytes of a word whose first letter is known. -/
def readWord : List UInt8 → Cursor → Except Error Cursor
  | [], c => .ok c
  | w :: ws, c =>
    match c.rest with
    | [] => .error (c.fault .endInValue)
    | b :: _ => if b = w then readWord ws c.bump else .error (c.bump.fault .expectedWord)

/-- The digits 0 to 9. -/
def isDigit (b : UInt8) : Bool :=
  0x30 ≤ b && b ≤ 0x39

/-- The value of a hexadecimal digit in either case. -/
def hexValue? (b : UInt8) : Option Nat :=
  if isDigit b then some (b.toNat - 0x30)
  else if 0x41 ≤ b && b ≤ 0x46 then some (b.toNat - 0x41 + 10)
  else if 0x61 ≤ b && b ≤ 0x66 then some (b.toNat - 0x61 + 10)
  else none

end Parley.Json

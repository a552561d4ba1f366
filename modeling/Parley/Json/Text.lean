import Parley.Json.Cursor
import Parley.Text.Utf8

/-!
# The strings of a JSON text

A string is read one byte at a time; `Within` says what the next byte belongs to. The bytes between
the quotes need to be UTF-8 only once the closing quote is reached.

- `readString`: the text of a string whose opening quote has been read.
- `skipString`: the same without looking at the code points, for values that nobody wants.
-/

namespace Parley.Json

/-- What the next byte inside a string belongs to. -/
inductive Within where
  /-- Ordinary text. -/
  | plain
  /-- An escape, whose backslash has been read. -/
  | escape
  /-- Four hexadecimal digits, of which those in `digits` have been read, latest first; a leading
  surrogate may wait for them. -/
  | hex (lead : Option Nat) (digits : List UInt8)
  /-- The backslash after a leading surrogate. -/
  | wantBackslash (lead : Nat)
  /-- The `u` after a leading surrogate and a backslash. -/
  | wantU (lead : Nat)
  deriving DecidableEq, Repr

/-- The byte that a one-letter escape stands for. -/
def simpleEscape? (b : UInt8) : Option UInt8 :=
  if b = 0x22 || b = 0x5C || b = 0x2F then some b
  else if b = 0x62 then some 0x08
  else if b = 0x66 then some 0x0C
  else if b = 0x6E then some 0x0A
  else if b = 0x72 then some 0x0D
  else if b = 0x74 then some 0x09
  else none

/-- The value of four hexadecimal digits, latest first. -/
def hexWord? (digits : List UInt8) : Option Nat :=
  digits.reverse.foldl (fun acc b => acc.bind fun n => (hexValue? b).map (16 * n + ·)) (some 0)

/-- The bytes of a code point, latest first, before those in `acc`. -/
def pushCode (n : Nat) (acc : List UInt8) : List UInt8 :=
  (String.utf8EncodeChar (Char.ofNat n)).reverse ++ acc

/-- What a completed `\uXXXX` does: the text so far and what comes next. -/
def afterHex (lead : Option Nat) (n : Nat) (acc : List UInt8) :
    Except Cause (Within × List UInt8) :=
  match lead with
  | none =>
    if 0xDC00 ≤ n && n ≤ 0xDFFF then .error .loneSurrogate
    else if 0xD800 ≤ n && n ≤ 0xDBFF then .ok (.wantBackslash n, acc)
    else .ok (.plain, pushCode n acc)
  | some hi =>
    if 0xDC00 ≤ n && n ≤ 0xDFFF then
      .ok (.plain, pushCode ((hi - 0xD800) * 0x400 + (n - 0xDC00) + 0x10000) acc)
    else .error .loneSurrogate

/-- Reads up to the closing quote; `acc` holds the bytes of the text so far, latest first. -/
def readStringFrom : List UInt8 → Place → Within → List UInt8 →
    Except Error (List UInt8 × Cursor)
  | [], p, _, _ => .error ⟨.endInString, some p⟩
  | b :: r, p, w, acc =>
    let q := p.after b
    match w with
    | .plain =>
      if b = 0x22 then .ok (acc.reverse, ⟨r, q⟩)
      else if b = 0x5C then readStringFrom r q .escape acc
      else if b < 0x20 then .error ⟨.controlCharacter, some q⟩
      else readStringFrom r q .plain (b :: acc)
    | .escape =>
      if b = 0x75 then readStringFrom r q (.hex none []) acc
      else
        match simpleEscape? b with
        | some e => readStringFrom r q .plain (e :: acc)
        | none => .error ⟨.badEscape, some q⟩
    | .hex lead digits =>
      if digits.length < 3 then readStringFrom r q (.hex lead (b :: digits)) acc
      else
        match hexWord? (b :: digits) with
        | none => .error ⟨.badEscape, some q⟩
        | some n =>
          match afterHex lead n acc with
          | .error cause => .error ⟨cause, some q⟩
          | .ok (w', acc') => readStringFrom r q w' acc'
    | .wantBackslash lead =>
      if b = 0x5C then readStringFrom r q (.wantU lead) acc
      else .error ⟨.unpairedSurrogate, some q⟩
    | .wantU lead =>
      if b = 0x75 then readStringFrom r q (.hex (some lead) []) acc
      else .error ⟨.unpairedSurrogate, some q⟩

/-- The place behind the first faulty byte of a string that is no text. Its bytes `written` start at
`p`; escapes are ASCII and stand for whole characters, so that they neither hide a fault nor make
one, and line ends do not occur. -/
def placeOfFault (p : Place) (written : List UInt8) : Place :=
  match Utf8.decode written with
  | .error fault => ⟨p.line, p.column + fault.index + 1⟩
  | .ok _ => p

/-- Reads a string whose opening quote has been read. -/
def readString (c : Cursor) : Except Error (String × Cursor) :=
  match readStringFrom c.rest c.place .plain [] with
  | .error e => .error e
  | .ok (bs, c') =>
    match Utf8.decode? bs with
    | some s => .ok (s, c')
    | none =>
      let written := c.rest.take (c.rest.length - c'.rest.length - 1)
      .error ⟨.badText, some (placeOfFault c.place written)⟩

/-- Passes over a string whose opening quote has been read. Escapes are checked by their form
alone. -/
def skipStringFrom : List UInt8 → Place → Within → Except Error Cursor
  | [], p, _ => .error ⟨.endInString, some p⟩
  | b :: r, p, w =>
    let q := p.after b
    match w with
    | .escape =>
      if b = 0x75 then skipStringFrom r q (.hex none [])
      else if (simpleEscape? b).isSome then skipStringFrom r q .plain
      else .error ⟨.badEscape, some q⟩
    | .hex lead digits =>
      if digits.length < 3 then skipStringFrom r q (.hex lead (b :: digits))
      else if (hexWord? (b :: digits)).isSome then skipStringFrom r q .plain
      else .error ⟨.badEscape, some q⟩
    | _ =>
      if b = 0x22 then .ok ⟨r, q⟩
      else if b = 0x5C then skipStringFrom r q .escape
      else if b < 0x20 then .error ⟨.controlCharacter, some p⟩
      else skipStringFrom r q .plain

/-- Passes over a string whose opening quote has been read. -/
def skipString (c : Cursor) : Except Error Cursor :=
  skipStringFrom c.rest c.place .plain

end Parley.Json

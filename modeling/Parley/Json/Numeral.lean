import Parley.Json.Cursor

/-!
# The numbers of a JSON text

- `readNumber`: a number whose minus sign, if it has one, has been read.
- `skipNumber`: the same without its value.

The digits are gathered into 64 bits. Those that no longer fit count for their position only, and
the number is then a double.
-/

namespace Parley.Json

/-- A decimal while it is read: the digits that fit, and the power of ten they stand before. -/
structure Gathered where
  significand : Nat
  exponent : Int

/-- Adds digits as long as 64 bits hold the significand; gives their number. -/
def gather (significand : Nat) : List UInt8 → Place → Nat × Nat × Cursor
  | [], p => (significand, 0, ⟨[], p⟩)
  | b :: r, p =>
    let next := significand * 10 + (b.toNat - 0x30)
    if isDigit b && next < 0x10000000000000000 then
      let (s, n, c) := gather next r (p.after b)
      (s, n + 1, c)
    else (significand, 0, ⟨b :: r, p⟩)

/-- Passes over digits; gives their number. -/
def skipDigits : List UInt8 → Place → Nat × Cursor
  | [], p => (0, ⟨[], p⟩)
  | b :: r, p =>
    if isDigit b then
      let (n, c) := skipDigits r (p.after b)
      (n + 1, c)
    else (0, ⟨b :: r, p⟩)

/-- Whether the next byte satisfies `p`. -/
def Cursor.startsWith (c : Cursor) (p : UInt8 → Bool) : Bool :=
  match c.rest with
  | [] => false
  | b :: _ => p b

/-- The letters that introduce an exponent. -/
def isExponentMark (b : UInt8) : Bool :=
  b = 0x65 || b = 0x45

/-- The double of a decimal that has been read up to `c`. -/
def finishReal (positive : Bool) (g : Gathered) (c : Cursor) : Except Error (Number × Cursor) :=
  match Number.ofParts positive (UInt64.ofNat g.significand) g.exponent with
  | some x => .ok (.real x, c)
  | none => .error (c.fault .numberTooLarge)

/-- The digits of an exponent after its first one; none if they leave 31 bits, and then the cursor
stands after the digit that does. -/
def gatherExponent (e : Nat) : List UInt8 → Place → Option Nat × Cursor
  | [], p => (some e, ⟨[], p⟩)
  | b :: r, p =>
    if isDigit b then
      let next := e * 10 + (b.toNat - 0x30)
      if next < 0x80000000 then gatherExponent next r (p.after b) else (none, ⟨r, p.after b⟩)
    else (some e, ⟨b :: r, p⟩)

/-- Reads an exponent from its letter on. -/
def readExponent (positive : Bool) (g : Gathered) (c : Cursor) :
    Except Error (Number × Cursor) :=
  let c := c.bump
  let up := !c.startsWith (· = 0x2D)
  let c := if c.startsWith (fun b => b = 0x2B || b = 0x2D) then c.bump else c
  match c.rest with
  | [] => .error (c.fault .endInValue)
  | b :: _ =>
    if isDigit b then
      match gatherExponent (b.toNat - 0x30) c.bump.rest c.bump.place with
      | (some e, c') =>
        finishReal positive ⟨g.significand, if up then g.exponent + e else g.exponent - e⟩ c'
      | (none, c') =>
        if g.significand ≠ 0 && up then .error (c'.fault .numberTooLarge)
        else .ok (.real (if positive then 0.0 else -0.0), (skipDigits c'.rest c'.place).2)
    else .error (c.bump.fault .badNumber)

/-- Reads what may follow the digits of a double. -/
def readTail (positive : Bool) (g : Gathered) (c : Cursor) : Except Error (Number × Cursor) :=
  if c.startsWith isExponentMark then readExponent positive g c else finishReal positive g c

/-- Reads a fraction from its point on. -/
def readFraction (positive : Bool) (g : Gathered) (c : Cursor) :
    Except Error (Number × Cursor) :=
  let c := c.bump
  let (s, n, c') := gather g.significand c.rest c.place
  let g' : Gathered := ⟨s, g.exponent - n⟩
  if c'.startsWith isDigit then
    readTail positive g' (skipDigits c'.rest c'.place).2
  else if n = 0 then
    .error (c'.faultNext (if c'.rest.isEmpty then .endInValue else .badNumber))
  else readTail positive g' c'

/-- Reads what may follow the integer part of a number. -/
def readAfterInteger (positive : Bool) (significand : Nat) (c : Cursor) :
    Except Error (Number × Cursor) :=
  if c.startsWith isDigit then
    let (n, c') := skipDigits c.rest c.place
    if c'.startsWith (· = 0x2E) then readFraction positive ⟨significand, n⟩ c'
    else readTail positive ⟨significand, n⟩ c'
  else if c.startsWith (· = 0x2E) then readFraction positive ⟨significand, 0⟩ c
  else if c.startsWith isExponentMark then readExponent positive ⟨significand, 0⟩ c
  else
    match if positive then Whole.ofInt? significand
      else if significand = 0 then none else Whole.ofInt? (-significand) with
    | some w => .ok (.whole w, c)
    | none => finishReal positive ⟨significand, 0⟩ c

/-- Reads a number whose sign is known. -/
def readNumber (positive : Bool) (c : Cursor) : Except Error (Number × Cursor) :=
  match c.rest with
  | [] => .error (c.fault .endInValue)
  | b :: _ =>
    if b = 0x30 then
      if c.bump.startsWith isDigit then .error (c.bump.faultNext .badNumber)
      else readAfterInteger positive 0 c.bump
    else if isDigit b then
      let (s, _, c') := gather (b.toNat - 0x30) c.bump.rest c.bump.place
      readAfterInteger positive s c'
    else .error (c.bump.fault .badNumber)

/-! ## Passing over -/

/-- Passes over an exponent from its letter on. -/
def skipExponent (c : Cursor) : Except Error Cursor :=
  let c := c.bump
  let c := if c.startsWith (fun b => b = 0x2B || b = 0x2D) then c.bump else c
  if c.startsWith isDigit then .ok (skipDigits c.rest c.place).2
  else .error (c.bump.fault .badNumber)

/-- Passes over a number whose sign is known. -/
def skipNumber (c : Cursor) : Except Error Cursor :=
  match c.rest with
  | [] => .error (c.fault .badNumber)
  | b :: _ =>
    if b = 0x30 && c.bump.startsWith isDigit then .error (c.bump.faultNext .badNumber)
    else if isDigit b then
      let c' := if b = 0x30 then c.bump else (skipDigits c.rest c.place).2
      if c'.startsWith (· = 0x2E) then
        let (n, c'') := skipDigits c'.bump.rest c'.bump.place
        if n = 0 then .error (c''.faultNext .badNumber)
        else if c''.startsWith isExponentMark then skipExponent c''
        else .ok c''
      else if c'.startsWith isExponentMark then skipExponent c'
      else .ok c'
    else .error (c.bump.fault .badNumber)

end Parley.Json

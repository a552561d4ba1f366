/-!
# Labels in ASCII

A label of a name that holds other characters is written in ASCII as its ASCII characters, a hyphen,
and a number for each of the others: how many places are passed over, through all code points in
ascending order, until it is put in. The numbers are written in base 36 with digits whose limits
follow the numbers before.

- `asciiForm`, `ofAsciiForm?`: the two directions.
-/

namespace Parley.Uri

/-- The character of a digit below 36. -/
def digit36 (n : Nat) : Char :=
  if n < 26 then Char.ofNat (0x61 + n) else Char.ofNat (0x30 + (n - 26))

/-- The value of a digit below 36, in lower case. -/
def digit36Value? (c : Char) : Option Nat :=
  let n := c.toNat
  if 0x61 ≤ n ∧ n ≤ 0x7A then some (n - 0x61)
  else if 0x30 ≤ n ∧ n ≤ 0x39 then some (n - 0x30 + 26)
  else none

/-- The limit of the digit at a place, counted in steps of 36, below which a number ends. -/
def digitLimit (bias place : Nat) : Nat :=
  if place ≤ bias then 1 else if bias + 26 ≤ place then 26 else place - bias

/-- Brings a number down below 456, and counts the steps of 36 that this takes. The first number
bounds the steps. -/
def settleBias : Nat → Nat → Nat → Nat
  | 0, k, delta => k + 36 * delta / (delta + 38)
  | fuel + 1, k, delta =>
    if 455 < delta then settleBias fuel (k + 36) (delta / 35)
    else k + 36 * delta / (delta + 38)

/-- The bias after a number, with `count` characters put in so far. -/
def nextBias (delta count : Nat) (first : Bool) : Nat :=
  let delta := if first then delta / 700 else delta / 2
  settleBias 32 0 (delta + delta / count)

/-- The digits of a number from a place on. The first number bounds the digits. -/
def numberDigits (bias : Nat) : Nat → Nat → Nat → List Char
  | 0, _, _ => []
  | fuel + 1, place, q =>
    let t := digitLimit bias place
    if q < t then [digit36 q]
    else
      digit36 (t + (q - t) % (36 - t)) :: numberDigits bias fuel (place + 36) ((q - t) / (36 - t))

/-- What is known while characters are written: the digits, the places passed over, the bias, and
how many characters are in. -/
structure Numbering where
  out : List Char
  delta : Nat
  bias : Nat
  count : Nat

/-- Passes one place of the label while the characters with code point `n` are written; `basic` is
the number of ASCII characters. -/
def Numbering.pass (basic n : Nat) (s : Numbering) (c : Char) : Numbering :=
  if c.toNat < n then { s with delta := s.delta + 1 }
  else if c.toNat = n then
    { out := s.out ++ numberDigits s.bias 64 36 s.delta
      delta := 0
      bias := nextBias s.delta (s.count + 1) (s.count == basic)
      count := s.count + 1 }
  else s

/-- Writes the characters with the given code points, in ascending order, of which those below `n`
are done. -/
def writeNumbers (label : List Char) (basic : Nat) : Nat → Numbering → List Nat → Numbering
  | _, s, [] => s
  | n, s, m :: ms =>
    let s := label.foldl (Numbering.pass basic m)
      { s with delta := s.delta + (m - n) * (s.count + 1) }
    writeNumbers label basic (m + 1) { s with delta := s.delta + 1 } ms

/-- A label in ASCII, without the mark in front of it. -/
def asciiForm (label : List Char) : List Char :=
  let basic := label.filter fun c => c.toNat < 0x80
  let others := (label.map Char.toNat).filter (0x80 ≤ ·)
  let codes := (others.mergeSort).eraseDups
  let start : Numbering := ⟨[], 0, 72, basic.length⟩
  (if basic.isEmpty then [] else basic ++ ['-'])
    ++ (writeNumbers label basic.length 0x80 start codes).out

/-- Reads a number: its value on top of `i`, and what follows it. -/
def readDigits (bias : Nat) : Nat → Nat → Nat → List Char → Option (Nat × List Char)
  | _, _, _, [] => none
  | place, weight, i, c :: cs =>
    match digit36Value? c with
    | none => none
    | some d =>
      let i := i + d * weight
      let t := digitLimit bias place
      if d < t then some (i, cs) else readDigits bias (place + 36) (weight * (36 - t)) i cs

/-- Puts in the characters whose numbers follow. The first number bounds the characters. -/
def readNumbers : Nat → Nat → Nat → Nat → Bool → List Char → List Char → Option (List Char)
  | _, _, _, _, _, label, [] => some label
  | 0, _, _, _, _, _, _ => none
  | fuel + 1, n, i, bias, first, label, cs =>
    match readDigits bias 36 1 i cs with
    | none => none
    | some (j, rest) =>
      let size := label.length + 1
      let n := n + j / size
      let place := j % size
      if n.isValidChar then
        readNumbers fuel n (place + 1) (nextBias (j - i) size first) false
          (label.take place ++ Char.ofNat n :: label.drop place) rest
      else none

/-- The label that a text in ASCII stands for, without the mark in front of it. -/
def ofAsciiForm? (cs : List Char) : Option (List Char) :=
  let behind := (cs.reverse.takeWhile (· ≠ '-')).reverse
  let basic := cs.take (cs.length - behind.length - 1)
  if basic.all (·.toNat < 0x80) then
    readNumbers (behind.length + 1) 0x80 0 72 true basic behind
  else none

end Parley.Uri

import Parley.Json.Cursor
import Parley.Text.Utf8

/-!
# Percent signs

A byte that a part of a URI may not hold is written as a percent sign and two hexadecimal digits.

- `percentEncode`: writes the characters of a set that way, and all that are not ASCII.
- `percentDecode`: the bytes that are meant.
- `inFragment`, `inQuery`, `inPath`, `inUserInfo`, `isControl`: what is written that way in each
  part.
-/

namespace Parley.Uri

/-- The digits of a byte behind a percent sign. -/
def hexPair (b : UInt8) : List Char :=
  ['%', (Nat.digitChar (b.toNat / 16)).toUpper, (Nat.digitChar (b.toNat % 16)).toUpper]

/-- The bytes of a character, each behind a percent sign. -/
def percentChar (c : Char) : List Char :=
  (String.utf8EncodeChar c).flatMap hexPair

/-- Encodes the characters of a set and those that are not ASCII. -/
def percentEncode (set : Char → Bool) (cs : List Char) : List Char :=
  cs.flatMap fun c => if set c || 0x80 ≤ c.toNat then percentChar c else [c]

/-- The bytes of a text in which two hexadecimal digits behind a percent sign stand for one. A
percent sign without them stands for itself. -/
def percentDecode : List UInt8 → List UInt8
  | [] => []
  | [a] => [a]
  | [a, b] => [a, b]
  | a :: b :: c :: r =>
    if a = 0x25 then
      match Json.hexValue? b, Json.hexValue? c with
      | some x, some y => UInt8.ofNat (x * 16 + y) :: percentDecode r
      | _, _ => a :: percentDecode (b :: c :: r)
    else a :: percentDecode (b :: c :: r)

/-- The control characters. -/
def isControl (c : Char) : Bool :=
  c.toNat < 0x20 || c.toNat = 0x7F

/-- What a fragment may not hold. -/
def inFragment (c : Char) : Bool :=
  isControl c || [' ', '"', '<', '>', '\x60'].contains c

/-- What a path may not hold. -/
def inPath (c : Char) : Bool :=
  inFragment c || ['#', '?', '\x7b', '\x7d'].contains c

/-- What a user name or a password may not hold. -/
def inUserInfo (c : Char) : Bool :=
  inPath c || ['/', ':', ';', '=', '@', '[', '\\', ']', '^', '|'].contains c

/-- What a query may not hold. -/
def inQuery (special : Bool) (c : Char) : Bool :=
  isControl c || [' ', '"', '#', '<', '>'].contains c || (special && c = '\'')

end Parley.Uri

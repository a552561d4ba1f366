/-!
# Blank characters

- `isBlank`: the Unicode property White_Space.
- `trim`: a text without the blanks at its two ends.
-/

namespace Parley.Text

/-- The Unicode property White_Space. -/
def isBlank (c : Char) : Bool :=
  let n := c.toNat
  (0x09 ≤ n && n ≤ 0x0D) || n = 0x20 || n = 0x85 || n = 0xA0 || n = 0x1680
    || (0x2000 ≤ n && n ≤ 0x200A) || n = 0x2028 || n = 0x2029 || n = 0x202F || n = 0x205F
    || n = 0x3000

/-- Drops the characters that satisfy `p` from the end of a text. -/
def dropTrailing (p : Char → Bool) (cs : List Char) : List Char :=
  (cs.reverse.dropWhile p).reverse

/-- Drops the characters that satisfy `p` from both ends of a text. -/
def dropAround (p : Char → Bool) (cs : List Char) : List Char :=
  dropTrailing p (cs.dropWhile p)

/-- A text without the blanks at its two ends. -/
def trim (cs : List Char) : List Char :=
  dropAround isBlank cs

/-- Lower case for the letters A to Z; any other character is its own. -/
def lowerAscii (c : Char) : Char :=
  if 'A' ≤ c && c ≤ 'Z' then Char.ofNat (c.toNat + 32) else c

/-- Equality of texts up to the case of the letters A to Z. -/
def sameIgnoringCase (cs ds : List Char) : Bool :=
  cs.map lowerAscii == ds.map lowerAscii

end Parley.Text

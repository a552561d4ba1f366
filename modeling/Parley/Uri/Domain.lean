import Parley.Text.Lower
import Parley.Uri.Punycode

/-!
# Names of machines

A name is a list of labels between dots. Outside ASCII many spellings mean the same label: it is put
into lower case, characters that are not seen are left out, and then it is written in ASCII, with a
mark in front.

Of UTS 46 this is the part that maps upper-case letters and wide forms of ASCII to one character,
and ignored characters to none. Two parts are left out. Any other compatibility form stays as it is,
above all a character that stands for several: a host with the ligature `ﬁ` and one with the letters
`fi` are two hosts here, and UTS 46 makes them one. And a letter is not composed with the marks that
follow it, so texts are expected in composed form.

- `plainForm`: the characters that are meant.
- `isLabel`: whether a label outside ASCII is allowed.
- `asciiName?`: the name in ASCII.
-/

namespace Parley.Uri

/-- Whether one of some inclusive ranges holds a character. -/
def inRanges (ranges : List (Nat × Nat)) (c : Char) : Bool :=
  ranges.any fun r => r.1 ≤ c.toNat && c.toNat ≤ r.2

/-! ## Characters -/

/-- Characters that are not seen and mean nothing. -/
def isIgnored (c : Char) : Bool :=
  inRanges [(0xAD, 0xAD), (0x34F, 0x34F), (0x180B, 0x180D), (0x180F, 0x180F), (0x200B, 0x200B),
    (0x2060, 0x2060), (0x2064, 0x2064), (0xFE00, 0xFE0F), (0xFEFF, 0xFEFF), (0xE0100, 0xE01EF)] c

/-- Characters that no label holds: blanks, control and format characters, and those that are
reserved for private use or for nothing at all. -/
def isRefused (c : Char) : Bool :=
  Text.isBlank c || c.toNat % 0x10000 ≥ 0xFFFE ||
    inRanges [(0x80, 0x9F), (0x600, 0x605), (0x61C, 0x61C), (0x6DD, 0x6DD), (0x70F, 0x70F),
      (0x180E, 0x180E), (0x200E, 0x200F), (0x2028, 0x202E), (0x2061, 0x2063), (0x2065, 0x206F),
      (0x2FF0, 0x2FFF), (0xE000, 0xF8FF), (0xFDD0, 0xFDEF), (0xFFF0, 0xFFFD), (0xE0000, 0x10FFFF)] c

/-- Characters that change the one before them. -/
def isMark (c : Char) : Bool :=
  inRanges [(0x300, 0x36F), (0x483, 0x489), (0x591, 0x5BD), (0x5BF, 0x5BF), (0x5C1, 0x5C2),
    (0x610, 0x61A), (0x64B, 0x65F), (0x670, 0x670), (0x6D6, 0x6DC), (0x8D3, 0x903), (0x93A, 0x93C),
    (0x93E, 0x94F), (0x1AB0, 0x1AFF), (0x1DC0, 0x1DFF), (0x20D0, 0x20FF), (0x302A, 0x302F),
    (0x3099, 0x309A), (0xFE20, 0xFE2F)] c

/-- The marks that say that no vowel follows. -/
def isVirama (c : Char) : Bool :=
  [0x94D, 0x9CD, 0xA4D, 0xACD, 0xB4D, 0xBCD, 0xC4D, 0xCCD, 0xD4D, 0xDCA, 0xE3A, 0xF84, 0x1039,
    0x103A, 0x17D2].contains c.toNat

/-- The two characters that join their neighbours or keep them apart. -/
def isJoiner (c : Char) : Bool :=
  c.toNat = 0x200C || c.toNat = 0x200D

/-- Letters of scripts that run from right to left. -/
def isRightToLeft (c : Char) : Bool :=
  !isMark c && !(0x660 ≤ c.toNat && c.toNat ≤ 0x669) && !(0x6F0 ≤ c.toNat && c.toNat ≤ 0x6F9) &&
    inRanges [(0x590, 0x8FF), (0xFB1D, 0xFDFF), (0xFE70, 0xFEFE), (0x10800, 0x10FFF),
      (0x1E800, 0x1EFFF)] c

/-- Digits of the scripts that run from right to left. -/
def isArabicDigit (c : Char) : Bool :=
  0x660 ≤ c.toNat && c.toNat ≤ 0x669

/-- Digits that stand in text of either direction. -/
def isPlainDigit (c : Char) : Bool :=
  c.isDigit || (0x6F0 ≤ c.toNat && c.toNat ≤ 0x6F9)

/-- Letters of scripts that run from left to right. -/
def isLeftToRight (c : Char) : Bool :=
  c.isAlpha || (0xAA ≤ c.toNat && !isRightToLeft c && !isMark c && !isArabicDigit c
    && !isPlainDigit c && !isJoiner c
    && !inRanges [(0xAB, 0xB4), (0xB6, 0xB9), (0xBB, 0xBF), (0x2010, 0x2BFF), (0x3000, 0x3004)] c)

/-! ## Labels -/

/-- The characters that are meant by a text, each by itself. -/
def plainForm (cs : List Char) : List Char :=
  cs.flatMap fun c =>
    if isIgnored c then []
    else if c.toNat = 0x3002 ∨ c.toNat = 0xFF61 then ['.']
    else [Text.lower c]

/-- Whether every joiner in a label stands behind a virama; `before` is the character in front. -/
def joinersFit : Option Char → List Char → Bool
  | _, [] => true
  | before, c :: cs => (!isJoiner c || before.any isVirama) && joinersFit (some c) cs

/-- Whether a label outside ASCII is allowed. -/
def isLabel (cs : List Char) : Bool :=
  !cs.any isRefused && !(cs.head?.any isMark) && joinersFit none cs

/-- Whether a label may stand in a name with letters that run from right to left: it runs in one
direction, and a number does not stand at its front. -/
def runsOneWay (cs : List Char) : Bool :=
  let last := (cs.reverse.dropWhile isMark).head?
  match cs with
  | [] => true
  | c :: _ =>
    if isRightToLeft c then
      !cs.any isLeftToRight && !(cs.any isArabicDigit && cs.any isPlainDigit)
        && last.any fun d => isRightToLeft d || isPlainDigit d || isArabicDigit d
    else
      isLeftToRight c && !cs.any (fun d => isRightToLeft d || isArabicDigit d)
        && last.any fun d => isLeftToRight d || isPlainDigit d

/-- Whether a text is ASCII. -/
def isAscii (cs : List Char) : Bool :=
  cs.all (·.toNat < 0x80)

/-- The mark in front of a label that was written in ASCII. -/
def asciiMark : List Char := "xn--".toList

/-- What a label says: itself, or what its ASCII form stands for. A label with the mark has to be
just what would be written. -/
def readLabel (cs : List Char) : Option (List Char) :=
  if asciiMark.isPrefixOf cs then
    (ofAsciiForm? (cs.drop asciiMark.length)).filter fun label =>
      !isAscii label && plainForm label == label && isLabel label
  else if isAscii cs || isLabel cs then some cs
  else none

/-- A label in ASCII. -/
def asciiLabel (cs : List Char) : List Char :=
  if isAscii cs then cs else asciiMark ++ asciiForm cs

/-- Cuts a text at every occurrence of a character. -/
def splitAt (d : Char) : List Char → List (List Char)
  | [] => [[]]
  | c :: cs =>
    if c = d then [] :: splitAt d cs
    else
      match splitAt d cs with
      | [] => [[c]]
      | p :: ps => (c :: p) :: ps

/-- The name in ASCII that a text stands for, which has no ligatures and is in composed form. -/
def asciiName? (cs : List Char) : Option (List Char) :=
  match (splitAt '.' (plainForm cs)).mapM readLabel with
  | none => none
  | some labels =>
    if labels.any (·.any fun c => isRightToLeft c || isArabicDigit c) && !labels.all runsOneWay then
      none
    else some (['.'].intercalate (labels.map asciiLabel))

end Parley.Uri

import Parley.Frame.Error
import Parley.Text.Blank

/-!
# Header lines

A frame is a block of lines `Name: value`, an empty line, and then as many bytes as the line for
Content-Length says. Every other line is passed over; of several lengths the last one counts.

- `HeaderLine.ofBytes`: what one line says.
- `bodyLength`: what a whole block says.
- `frame`: a frame in the form in which it is written.
-/

namespace Parley

namespace Frame

/-- The byte that ends a line. -/
def lineFeed : UInt8 := 0x0A

/-- The name of the line that gives the length. -/
def lengthName : List Char := "content-length".toList

/-- What a header line says. -/
inductive HeaderLine where
  /-- The block ends here. -/
  | last
  /-- The body has this many bytes. -/
  | length (n : Nat)
  | other
  deriving DecidableEq, Repr

/-- The number that decimal digits stand for; none if there is another character. -/
def digitsValue? : Nat → List Char → Option Nat
  | n, [] => some n
  | n, c :: cs => if c.isDigit then digitsValue? (n * 10 + (c.toNat - '0'.toNat)) cs else none

/-- The count of bytes that a text gives: digits, possibly after a plus sign, within 64 bits. -/
def byteCount? (cs : List Char) : Option Nat :=
  let digits := match cs with
    | '+' :: ds => ds
    | ds => ds
  if digits.isEmpty then none
  else (digitsValue? 0 digits).filter (· < 0x10000000000000000)

/-- The characters of a line's end. -/
def isLineEnd (c : Char) : Bool :=
  c = '\r' || c = '\n'

/-- What a line of text says, its end removed. -/
def HeaderLine.ofText (line : List Char) : Except ReadError HeaderLine :=
  if line.isEmpty then .ok .last
  else
    match line.dropWhile (· ≠ ':') with
    | [] => .error (.noColon line)
    | _ :: value =>
      if Text.sameIgnoringCase (Text.trim (line.takeWhile (· ≠ ':'))) lengthName then
        match byteCount? (Text.trim value) with
        | some n => .ok (.length n)
        | none => .error (.badLength (Text.trim value))
      else .ok .other

/-- What a line says. A line that has all the bytes it may have, and no end, is refused, unless
those bytes are no text in the first place. -/
def HeaderLine.ofBytes (line : List UInt8) : Except ReadError HeaderLine :=
  match Utf8.decode line with
  | .error fault => .error (.headerNotText fault)
  | .ok cs =>
    if line.length = maxHeaderLine ∧ line.getLast? ≠ some lineFeed then .error .lineTooLong
    else HeaderLine.ofText (Text.dropTrailing isLineEnd cs)

/-- The length of the body that a block of header lines announces. -/
def bodyLength (limit : Nat) (length : Option Nat) : Except ReadError Nat :=
  match length with
  | none => .error .noLength
  | some n => if limit < n then .error (.frameTooLarge n limit) else .ok n

/-- The header block of a body with `n` bytes. -/
def header (n : Nat) : List UInt8 :=
  Utf8.encodeChars ("Content-Length: ".toList ++ Nat.toDigits 10 n ++ ['\r', '\n', '\r', '\n'])

/-- A body in its frame. -/
def frame (body : List UInt8) : List UInt8 :=
  header body.length ++ body

end Frame

/-- A message in its frame. -/
def Message.frame (m : Message) : List UInt8 :=
  Frame.frame m.toBytes

end Parley

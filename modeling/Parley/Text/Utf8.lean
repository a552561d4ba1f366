/-!
# UTF-8 text

Bytes become characters and characters bytes. Reading is the recursion `pieces`: a byte string is
cut into well-formed characters, into the longest faulty runs between them, and possibly into one
character that the end of the string cuts short.

- `encode`: the bytes of a text.
- `decode`: the text of bytes that are well-formed throughout, else the first `Fault`.
- `lossy`: the text with one U+FFFD in the place of every fault.
-/

namespace Parley.Utf8

/-! ## Writing -/

/-- The bytes of a sequence of characters. -/
def encodeChars (cs : List Char) : List UInt8 :=
  cs.flatMap String.utf8EncodeChar

/-- The bytes of a text. -/
def encode (s : String) : List UInt8 :=
  encodeChars s.toList

@[simp] theorem encodeChars_nil : encodeChars [] = [] := rfl

@[simp] theorem encodeChars_cons (c : Char) (cs : List Char) :
    encodeChars (c :: cs) = String.utf8EncodeChar c ++ encodeChars cs := rfl

@[simp] theorem encodeChars_append (cs ds : List Char) :
    encodeChars (cs ++ ds) = encodeChars cs ++ encodeChars ds := by
  simp [encodeChars]

/-! ## Reading -/

/-- A part of a byte string, from left to right. -/
inductive Piece where
  /-- A well-formed character. -/
  | char (c : Char)
  /-- This many bytes, which no character starts with. -/
  | stray (count : Nat)
  /-- A character that the end of the string cuts short, with this many bytes of it present. -/
  | cut (count : Nat)
  deriving DecidableEq, Repr

/-- Continuation bytes. -/
def isTail (b : UInt8) : Bool :=
  0x80 ≤ b && b ≤ 0xBF

/-- The bytes that may follow the first byte `a` of a character of three or four bytes: overlong
forms, surrogates and values above U+10FFFF are refused by the second byte. -/
def isSecond (a b : UInt8) : Bool :=
  if a = 0xE0 then 0xA0 ≤ b && b ≤ 0xBF
  else if a = 0xED then 0x80 ≤ b && b ≤ 0x9F
  else if a = 0xF0 then 0x90 ≤ b && b ≤ 0xBF
  else if a = 0xF4 then 0x80 ≤ b && b ≤ 0x8F
  else isTail b

/-- The six bits that a continuation byte carries. -/
def low6 (b : UInt8) : Nat :=
  b.toNat % 0x40

/-- Cuts a byte string into its pieces. -/
def pieces : List UInt8 → List Piece
  | [] => []
  | a :: r =>
    if a < 0x80 then .char (Char.ofNat a.toNat) :: pieces r
    else if a < 0xC2 then .stray 1 :: pieces r
    else if a < 0xE0 then
      match r with
      | [] => [.cut 1]
      | b :: r₂ =>
        if isTail b then .char (Char.ofNat (a.toNat % 0x20 * 0x40 + low6 b)) :: pieces r₂
        else .stray 1 :: pieces (b :: r₂)
    else if a < 0xF0 then
      match r with
      | [] => [.cut 1]
      | b :: r₂ =>
        if isSecond a b then
          match r₂ with
          | [] => [.cut 2]
          | c :: r₃ =>
            if isTail c then
              .char (Char.ofNat ((a.toNat % 0x10 * 0x40 + low6 b) * 0x40 + low6 c)) :: pieces r₃
            else .stray 2 :: pieces (c :: r₃)
        else .stray 1 :: pieces (b :: r₂)
    else if a < 0xF5 then
      match r with
      | [] => [.cut 1]
      | b :: r₂ =>
        if isSecond a b then
          match r₂ with
          | [] => [.cut 2]
          | c :: r₃ =>
            if isTail c then
              match r₃ with
              | [] => [.cut 3]
              | d :: r₄ =>
                if isTail d then
                  .char (Char.ofNat
                    (((a.toNat % 0x08 * 0x40 + low6 b) * 0x40 + low6 c) * 0x40 + low6 d))
                    :: pieces r₄
                else .stray 3 :: pieces (d :: r₄)
            else .stray 2 :: pieces (c :: r₃)
        else .stray 1 :: pieces (b :: r₂)
    else .stray 1 :: pieces r

/-- Why bytes are not text. -/
inductive Fault where
  /-- `count` bytes that no character starts with, after `index` good bytes. -/
  | invalid (count index : Nat)
  /-- A character cut short by the end, after `index` good bytes. -/
  | incomplete (index : Nat)
  deriving DecidableEq, Repr

/-- The wording of a fault. -/
def Fault.message : Fault → String
  | .invalid count index =>
    "invalid utf-8 sequence of " ++ toString count ++ " bytes from index " ++ toString index
  | .incomplete index => "incomplete utf-8 byte sequence from index " ++ toString index

/-- The number of good bytes before a fault. -/
def Fault.index : Fault → Nat
  | .invalid _ index | .incomplete index => index

/-- The characters of a sequence of pieces that starts `index` bytes into its text. -/
def ofPieces : Nat → List Piece → Except Fault (List Char)
  | _, [] => .ok []
  | index, .char c :: ps => (ofPieces (index + c.utf8Size) ps).map (c :: ·)
  | index, .stray count :: _ => .error (.invalid count index)
  | index, .cut _ :: _ => .error (.incomplete index)

/-- The text of bytes that are well-formed throughout, else the first fault. -/
def decode (bs : List UInt8) : Except Fault (List Char) :=
  ofPieces 0 (pieces bs)

/-- The text of bytes that are well-formed throughout. -/
def decode? (bs : List UInt8) : Option String :=
  match decode bs with
  | .ok cs => some (String.ofList cs)
  | .error _ => none

/-- The character that a piece stands for when faults are shown as U+FFFD. -/
def Piece.shown : Piece → Char
  | .char c => c
  | .stray _ | .cut _ => '\uFFFD'

/-- The text of any bytes, with one U+FFFD in the place of every fault. -/
def lossy (bs : List UInt8) : List Char :=
  (pieces bs).map Piece.shown

end Parley.Utf8

import Parley.Json.Basic
import Parley.Json.Numeral
import Parley.Json.Punctuation

/-!
# Reading JSON text

- `readValue`: one value. `depth` is the number of brackets that may still be opened; `fuel` bounds
  the recursion, and every call takes at least one byte, so the number of bytes is enough.
- `parse`: a whole text, blanks around it allowed.
-/

namespace Parley.Json

/-- The brackets that may be open at once. -/
def maxDepth : Nat := 127

mutual

/-- Reads one value. -/
def readValue : Nat → Nat → Cursor → Except Error (Json × Cursor)
  | 0, _, c => .error (c.faultNext .endInValue)
  | fuel + 1, depth, c =>
    let c := c.skipBlanks
    match c.rest with
    | [] => .error (c.faultNext .endInValue)
    | b :: _ =>
      if b = 0x6E then
        (readWord [0x75, 0x6C, 0x6C] c.bump).map fun c => (.null, c)
      else if b = 0x74 then
        (readWord [0x72, 0x75, 0x65] c.bump).map fun c => (.bool true, c)
      else if b = 0x66 then
        (readWord [0x61, 0x6C, 0x73, 0x65] c.bump).map fun c => (.bool false, c)
      else if b = 0x2D then
        (readNumber false c.bump).map fun (n, c) => (.num n, c)
      else if isDigit b then
        (readNumber true c).map fun (n, c) => (.num n, c)
      else if b = 0x22 then
        (readString c.bump).map fun (s, c) => (.str s, c)
      else if b = 0x5B then
        match depth with
        | 0 => .error (c.faultNext .tooDeep)
        | depth + 1 => (readItems fuel depth true c.bump).map fun (vs, c) => (.arr vs, c)
      else if b = 0x7B then
        match depth with
        | 0 => .error (c.faultNext .tooDeep)
        | depth + 1 => (readMembers fuel depth true c.bump).map fun (ms, c) => (ofMembers ms, c)
      else .error (c.faultNext .expectedValue)

/-- Reads the items of an array up to its closing bracket. -/
def readItems : Nat → Nat → Bool → Cursor → Except Error (List Json × Cursor)
  | 0, _, _, c => .error (c.faultNext .endInList)
  | fuel + 1, depth, first, c =>
    match nextItem first c with
    | .error e => .error e
    | .ok (false, c) => .ok ([], c)
    | .ok (true, c) =>
      match readValue fuel depth c with
      | .error e => .error e
      | .ok (v, c) => (readItems fuel depth false c).map fun (vs, c) => (v :: vs, c)

/-- Reads the members of an object up to its closing brace. -/
def readMembers : Nat → Nat → Bool → Cursor → Except Error (List (String × Json) × Cursor)
  | 0, _, _, c => .error (c.faultNext .endInObject)
  | fuel + 1, depth, first, c =>
    match nextMember first c with
    | .error e => .error e
    | .ok (false, c) => .ok ([], c)
    | .ok (true, c) =>
      match readKey c with
      | .error e => .error e
      | .ok (k, c) =>
        match readColon c with
        | .error e => .error e
        | .ok c =>
          match readValue fuel depth c with
          | .error e => .error e
          | .ok (v, c) => (readMembers fuel depth false c).map fun (ms, c) => ((k, v) :: ms, c)

end

/-- The fuel that reading from a place onwards needs. -/
def Cursor.fuel (c : Cursor) : Nat := 2 * c.rest.length + 2

/-- Reads a whole text. -/
def parse (bs : List UInt8) : Except Error Json :=
  let c := Cursor.ofBytes bs
  match readValue c.fuel maxDepth c with
  | .error e => .error e
  | .ok (v, c) => (closeText c).map fun _ => v

/-- Reads a whole text. -/
def ofText (s : String) : Except Error Json :=
  parse (Utf8.encode s)

end Parley.Json

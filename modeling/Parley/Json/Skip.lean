import Parley.Json.Numeral
import Parley.Json.Punctuation

/-!
# Passing over JSON text

A value under a key that nobody asked for is passed over. Its form is checked less strictly than
that of a value that is read: numbers may have any size, strings need not be text, and brackets may
be nested to any depth. They are kept on a stack, innermost first.

- `skipValue`: passes over one value.
-/

namespace Parley.Json

/-- The two kinds of brackets. -/
inductive Bracket where
  | list
  | object
  deriving DecidableEq, Repr

/-- The byte that closes a bracket. -/
def Bracket.closing : Bracket → UInt8
  | .list => 0x5D
  | .object => 0x7D

/-- After a value, or after an opening bracket: closes brackets until a value has to follow. Gives
the brackets still open, or none if the outermost value is complete. -/
def skipClosings : List Bracket → Bool → Cursor → Except Error (List Bracket × Cursor)
  | [], _, c => .ok ([], c)
  | k :: ks, comma, c =>
    let c := c.skipBlanks
    match c.rest with
    | [] => .error (c.faultNext (match k with | .list => .endInList | .object => .endInObject))
    | b :: _ =>
      if b = 0x2C && comma then .ok (k :: ks, c.bump)
      else if b = k.closing then skipClosings ks true c.bump
      else if comma then
        .error (c.faultNext
          (match k with | .list => .expectedListEnd | .object => .expectedObjectEnd))
      else .ok (k :: ks, c)

/-- Passes over the key and the colon that a value inside an object starts with. -/
def skipKey (k : Bracket) (c : Cursor) : Except Error Cursor :=
  match k with
  | .list => .ok c
  | .object =>
    let c := c.skipBlanks
    match c.rest with
    | [] => .error (c.faultNext .endInObject)
    | b :: _ =>
      if b = 0x22 then
        match skipString c.bump with
        | .error e => .error e
        | .ok c => readColon c
      else .error (c.faultNext .keyNotString)

/-- Passes over what is left of a value inside the given brackets. -/
def skipFrom : Nat → List Bracket → Cursor → Except Error Cursor
  | 0, _, c => .error (c.faultNext .endInValue)
  | fuel + 1, open_, c =>
    let c := c.skipBlanks
    let after (opened : Option Bracket) (c : Cursor) : Except Error Cursor :=
      match skipClosings (opened.toList ++ open_) opened.isNone c with
      | .error e => .error e
      | .ok ([], c) => .ok c
      | .ok (k :: ks, c) =>
        match skipKey k c with
        | .error e => .error e
        | .ok c => skipFrom fuel (k :: ks) c
    let leaf (r : Except Error Cursor) : Except Error Cursor :=
      match r with
      | .error e => .error e
      | .ok c => after none c
    match c.rest with
    | [] => .error (c.faultNext .endInValue)
    | b :: _ =>
      if b = 0x6E then leaf (readWord [0x75, 0x6C, 0x6C] c.bump)
      else if b = 0x74 then leaf (readWord [0x72, 0x75, 0x65] c.bump)
      else if b = 0x66 then leaf (readWord [0x61, 0x6C, 0x73, 0x65] c.bump)
      else if b = 0x2D then leaf (skipNumber c.bump)
      else if isDigit b then leaf (skipNumber c)
      else if b = 0x22 then leaf (skipString c.bump)
      else if b = 0x5B then after (some .list) c.bump
      else if b = 0x7B then after (some .object) c.bump
      else .error (c.faultNext .expectedValue)

/-- Passes over one value. -/
def skipValue (c : Cursor) : Except Error Cursor :=
  skipFrom (c.rest.length + 2) [] c

end Parley.Json

import Parley.Json.Text

/-!
# The punctuation of JSON text

- `nextItem`, `nextMember`: whether a list or an object goes on, past the comma or the closing
  bracket that says so.
- `readKey`, `readColon`: the front of a member.
- `closeList`: the end of a list of known length.
-/

namespace Parley.Json

/-- Whether a list goes on. The cursor then stands before the next item, and behind the closing
bracket otherwise. -/
def nextItem (first : Bool) (c : Cursor) : Except Error (Bool × Cursor) :=
  let c := c.skipBlanks
  match c.rest with
  | [] => .error (c.faultNext .endInList)
  | b :: _ =>
    if b = 0x5D then .ok (false, c.bump)
    else if first then .ok (true, c)
    else if b = 0x2C then
      let c := c.bump.skipBlanks
      match c.rest with
      | [] => .error (c.faultNext .endInValue)
      | d :: _ => if d = 0x5D then .error (c.faultNext .trailingComma) else .ok (true, c)
    else .error (c.faultNext .expectedListEnd)

/-- Whether an object goes on. The cursor then stands before the opening quote of the next key, and
behind the closing brace otherwise. -/
def nextMember (first : Bool) (c : Cursor) : Except Error (Bool × Cursor) :=
  let c := c.skipBlanks
  match c.rest with
  | [] => .error (c.faultNext .endInObject)
  | b :: _ =>
    if b = 0x7D then .ok (false, c.bump)
    else if first then
      if b = 0x22 then .ok (true, c) else .error (c.faultNext .keyNotString)
    else if b = 0x2C then
      let c := c.bump.skipBlanks
      match c.rest with
      | [] => .error (c.faultNext .endInValue)
      | d :: _ =>
        if d = 0x22 then .ok (true, c)
        else if d = 0x7D then .error (c.faultNext .trailingComma)
        else .error (c.faultNext .keyNotString)
    else .error (c.faultNext .expectedObjectEnd)

/-- Reads a key from its opening quote on. -/
def readKey (c : Cursor) : Except Error (String × Cursor) :=
  readString c.bump

/-- Reads the colon of a member. -/
def readColon (c : Cursor) : Except Error Cursor :=
  let c := c.skipBlanks
  match c.rest with
  | [] => .error (c.faultNext .endInObject)
  | b :: _ => if b = 0x3A then .ok c.bump else .error (c.faultNext .expectedColon)

/-- The end of a list of which every wanted item has been read. -/
def closeList (c : Cursor) : Except Error Cursor :=
  let c := c.skipBlanks
  match c.rest with
  | [] => .error (c.faultNext .endInList)
  | b :: _ =>
    if b = 0x5D then .ok c.bump
    else if b = 0x2C then
      let c := c.bump.skipBlanks
      if c.rest.head? = some 0x5D then .error (c.faultNext .trailingComma)
      else .error (c.faultNext .trailingCharacters)
    else .error (c.faultNext .trailingCharacters)

/-- The end of a text: nothing but blanks may follow. -/
def closeText (c : Cursor) : Except Error Unit :=
  let c := c.skipBlanks
  if c.rest.isEmpty then .ok () else .error (c.faultNext .trailingCharacters)

end Parley.Json

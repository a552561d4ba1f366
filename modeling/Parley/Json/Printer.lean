import Parley.Json.Basic
import Parley.Text.Quoted
import Parley.Text.Utf8

/-!
# JSON text

The compact form of a value: no blanks, members in the order of their keys, strings with the
escapes of the format and with every other character as it is.

- `Json.render`, `Json.text`, `Json.bytes`: the compact form as characters, text and bytes.
- `renderMembersAs`: an object whose members stand in an order of their own.
-/

namespace Parley.Json

/-- A character inside a JSON string. Quotes, backslashes and the characters below U+0020 are
escaped. -/
def escapeChar (c : Char) : List Char :=
  if c = '"' then ['\\', '"']
  else if c = '\\' then ['\\', '\\']
  else if 0x20 ≤ c.toNat then [c]
  else if c = '\n' then ['\\', 'n']
  else if c = '\t' then ['\\', 't']
  else if c = '\r' then ['\\', 'r']
  else if c.toNat = 0x08 then ['\\', 'b']
  else if c.toNat = 0x0C then ['\\', 'f']
  else ['\\', 'u', '0', '0', Nat.digitChar (c.toNat / 16), Nat.digitChar (c.toNat % 16)]

/-- A string in its written form. -/
def renderString (s : String) : List Char :=
  '"' :: s.toList.flatMap escapeChar ++ ['"']

mutual

/-- The compact form of a value. -/
def render : Json → List Char
  | .null => ['n', 'u', 'l', 'l']
  | .bool true => ['t', 'r', 'u', 'e']
  | .bool false => ['f', 'a', 'l', 's', 'e']
  | .num n => n.render
  | .str s => renderString s
  | .arr items => '[' :: renderItems items
  | .obj members => '{' :: renderMembers members

/-- The items of an array and its closing bracket. -/
def renderItems : List Json → List Char
  | [] => [']']
  | [v] => render v ++ [']']
  | v :: w :: vs => render v ++ ',' :: renderItems (w :: vs)

/-- The members of an object and its closing brace. -/
def renderMembers : List (String × Json) → List Char
  | [] => ['}']
  | [(k, v)] => renderString k ++ ':' :: (render v ++ ['}'])
  | (k, v) :: m :: ms => renderString k ++ ':' :: (render v ++ ',' :: renderMembers (m :: ms))

end

/-- The compact form of a value as text. -/
def text (v : Json) : String :=
  String.ofList v.render

/-- The compact form of a value as bytes. -/
def bytes (v : Json) : List UInt8 :=
  Utf8.encodeChars v.render

/-- The compact form of an object whose members keep the order in which they are given. -/
def textInOrder (ms : List (String × Json)) : String :=
  text (.obj ms)

end Parley.Json

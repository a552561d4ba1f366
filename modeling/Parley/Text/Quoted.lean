import Parley.Text.Shown

/-!
# Quoted text

A text between double quotes, in which every character can be told from every other: backslash,
double quote, tab, line feed, carriage return and NUL have a short escape, and a character that
does not show is written by its code in braces.

- `quoteChar`, `quote`: the quoted form.
-/

namespace Parley.Text

/-- The digits of a number in base 16, lower case, most significant first. -/
def hexDigits (n : Nat) : List Char :=
  Nat.toDigits 16 n

/-- A character inside a quoted text. -/
def quoteChar (c : Char) : List Char :=
  if c = '"' then ['\\', '"']
  else if c = '\\' then ['\\', '\\']
  else if c = '\t' then ['\\', 't']
  else if c = '\n' then ['\\', 'n']
  else if c = '\r' then ['\\', 'r']
  else if c.toNat = 0 then ['\\', '0']
  else if isShown c then [c]
  else ['\\', 'u', '{'] ++ hexDigits c.toNat ++ ['}']

/-- A text between double quotes. -/
def quote (cs : List Char) : String :=
  String.ofList ('"' :: cs.flatMap quoteChar ++ ['"'])

end Parley.Text

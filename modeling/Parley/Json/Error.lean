import Parley.Json.Number
import Parley.Text.Quoted

/-!
# Why JSON text or a JSON value is refused

- `Cause`: the reasons, those of the grammar first and then those of an expected shape.
- `Error`: a reason, with its place when the value was read from text.
- `Error.message`: the wording.
-/

namespace Parley.Json

/-- What stands where something else was expected. -/
inductive Found where
  | null
  | bool (b : Bool)
  | number (n : Number)
  | text (s : String)
  | list
  | object
  deriving DecidableEq, Repr

/-- A reason to refuse a text or a value. -/
inductive Cause where
  | endInList
  | endInObject
  | endInString
  | endInValue
  | expectedColon
  | expectedListEnd
  | expectedObjectEnd
  | expectedWord
  | expectedValue
  | badEscape
  | badNumber
  | numberTooLarge
  | badText
  | controlCharacter
  | keyNotString
  | loneSurrogate
  | trailingComma
  | trailingCharacters
  | unpairedSurrogate
  | tooDeep
  /-- A value of another type than `expected`. -/
  | wrongType (found : Found) (expected : String)
  /-- A value of the right type outside the range of `expected`. -/
  | wrongValue (found : Found) (expected : String)
  /-- A list of another length than `expected`. -/
  | wrongLength (length : Nat) (expected : String)
  | missingField (name : String)
  | duplicateField (name : String)
  /-- A value that is none of the alternatives of the type `name`. -/
  | noAlternative (name : String)
  deriving DecidableEq, Repr

/-- A place in a text: the line, from 1, and the number of bytes before it in its line. -/
structure Place where
  line : Nat
  column : Nat
  deriving DecidableEq, Repr

/-- A refusal. -/
structure Error where
  cause : Cause
  /-- Where in the text, if there is one. -/
  place : Option Place
  deriving DecidableEq, Repr

/-- The wording of what was found. -/
def Found.message : Found → String
  | .null => "null"
  | .bool b => "boolean `" ++ toString b ++ "`"
  | .number (.whole n) => "integer `" ++ String.ofList (renderInt n.val) ++ "`"
  | .number (.real x) => "floating point `" ++ String.ofList (renderReal x) ++ "`"
  | .text s => "string " ++ Text.quote s.toList
  | .list => "sequence"
  | .object => "map"

/-- The wording of a reason. -/
def Cause.message : Cause → String
  | .endInList => "EOF while parsing a list"
  | .endInObject => "EOF while parsing an object"
  | .endInString => "EOF while parsing a string"
  | .endInValue => "EOF while parsing a value"
  | .expectedColon => "expected `:`"
  | .expectedListEnd => "expected `,` or `]`"
  | .expectedObjectEnd => "expected `,` or `\x7d`"
  | .expectedWord => "expected ident"
  | .expectedValue => "expected value"
  | .badEscape => "invalid escape"
  | .badNumber => "invalid number"
  | .numberTooLarge => "number out of range"
  | .badText => "invalid unicode code point"
  | .controlCharacter => "control character (\\u0000-\\u001F) found while parsing a string"
  | .keyNotString => "key must be a string"
  | .loneSurrogate => "lone leading surrogate in hex escape"
  | .trailingComma => "trailing comma"
  | .trailingCharacters => "trailing characters"
  | .unpairedSurrogate => "unexpected end of hex escape"
  | .tooDeep => "recursion limit exceeded"
  | .wrongType found expected => "invalid type: " ++ found.message ++ ", expected " ++ expected
  | .wrongValue found expected => "invalid value: " ++ found.message ++ ", expected " ++ expected
  | .wrongLength length expected =>
    "invalid length " ++ toString length ++ ", expected " ++ expected
  | .missingField name => "missing field `" ++ name ++ "`"
  | .duplicateField name => "duplicate field `" ++ name ++ "`"
  | .noAlternative name => "data did not match any variant of untagged enum " ++ name

/-- The wording of a refusal. -/
def Error.message (e : Error) : String :=
  match e.place with
  | none => e.cause.message
  | some p =>
    e.cause.message ++ " at line " ++ toString p.line ++ " column " ++ toString p.column

end Parley.Json

import Parley.Frame.Error
import Parley.Json.Shape

/-!
# The settings of a connection

- `Config.ofBytes`: reads settings from JSON text; what is missing has its default.
- `Config.text`: their form as JSON text.
-/

namespace Parley

/-- The settings of a connection. -/
structure Config where
  /-- The bytes that the body of a received frame may have. It is meant to be a length that a buffer
  can have: the task of a connection that makes room for more than that panics, and what becomes of
  the connection then is not described here. -/
  maxContentLength : Nat := defaultMaxContentLength
  /-- The seconds that a call waits for its answer; any time if there is no limit. -/
  requestTimeout : Option Nat := none
  /-- Whether everything that is queued is written before the connection closes because the peer
  is gone. -/
  flushOnEnd : Bool := true
  deriving DecidableEq, Repr

namespace Config

/-- The settings as fields, in the order of their declaration. -/
def fields (c : Config) : List (String × Json) :=
  [("max_content_length", .ofInt c.maxContentLength),
    ("request_timeout_secs", c.requestTimeout.elim .null fun n => .ofInt n),
    ("flush_on_eof", .bool c.flushOnEnd)]

/-- The settings as JSON text. -/
def text (c : Config) : String :=
  Json.textInOrder c.fields

/-- The shape of settings. A field that is missing has its default. -/
def shape : Json.Shape :=
  .record "ConnectionConfig"
    [("max_content_length", .filled (.ofInt defaultMaxContentLength), .natWord),
      ("request_timeout_secs", .filled .null, .optional .nat64),
      ("flush_on_eof", .filled (.bool true), .bool)]

/-- The number in a field. -/
def natField? (v : Json) : Option Nat :=
  match v with
  | .num n => n.toInt?.map Int.toNat
  | _ => none

/-- The settings with the fields of a value. -/
def ofFields (v : Json) : Config :=
  { maxContentLength := (natField? (v.index "max_content_length")).getD defaultMaxContentLength
    requestTimeout := natField? (v.index "request_timeout_secs")
    flushOnEnd := v.index "flush_on_eof" != .bool false }

/-- Reads settings from JSON text. -/
def ofBytes (bs : List UInt8) : Except Json.Error Config :=
  (shape.ofBytes bs).map ofFields

/-- An optional number in a description. -/
def describeNat : Option Nat → String
  | none => "None"
  | some n => "Some(" ++ toString n ++ ")"

/-- Settings for a reader. -/
def describe (c : Config) : String :=
  "ConnectionConfig \x7b max_content_length: " ++ toString c.maxContentLength
    ++ ", request_timeout_secs: " ++ describeNat c.requestTimeout
    ++ ", flush_on_eof: " ++ toString c.flushOnEnd ++ " \x7d"

end Config

end Parley

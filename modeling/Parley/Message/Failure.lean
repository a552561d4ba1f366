import Parley.Json.Shape

/-!
# Failures

The error of a response: a code, a description and optional data.

- `ErrorCode`: the codes that have a name.
- `Failure.toJson`, `Failure.ofJson`: its form as a JSON value.
-/

namespace Parley

/-- The code of a failure. -/
structure ErrorCode where
  val : Int32
  deriving DecidableEq, Repr

namespace ErrorCode

/-- Invalid JSON was received. -/
def parseError : ErrorCode := ⟨-32700⟩
/-- The JSON that was received is no request. -/
def invalidRequest : ErrorCode := ⟨-32600⟩
/-- No handler is registered for the method, or for the document. -/
def methodNotFound : ErrorCode := ⟨-32601⟩
/-- The params do not fit what the handler expects. -/
def invalidParams : ErrorCode := ⟨-32602⟩
/-- The handler failed unexpectedly. -/
def internalError : ErrorCode := ⟨-32603⟩
/-- A request came before the server was initialized. -/
def serverNotInitialized : ErrorCode := ⟨-32002⟩
/-- Reserved, without a meaning. -/
def unknownErrorCode : ErrorCode := ⟨-32001⟩
/-- A request failed but was correct in form. -/
def requestFailed : ErrorCode := ⟨-32803⟩
/-- The server cancelled the request. -/
def serverCancelled : ErrorCode := ⟨-32802⟩
/-- The document changed while the request was served. -/
def contentModified : ErrorCode := ⟨-32801⟩
/-- The peer cancelled the request. -/
def requestCancelled : ErrorCode := ⟨-32800⟩

/-- The codes that have a name. -/
def named : List (String × ErrorCode) :=
  [("PARSE_ERROR", parseError), ("INVALID_REQUEST", invalidRequest),
    ("METHOD_NOT_FOUND", methodNotFound), ("INVALID_PARAMS", invalidParams),
    ("INTERNAL_ERROR", internalError), ("SERVER_NOT_INITIALIZED", serverNotInitialized),
    ("UNKNOWN_ERROR_CODE", unknownErrorCode), ("REQUEST_FAILED", requestFailed),
    ("SERVER_CANCELLED", serverCancelled), ("CONTENT_MODIFIED", contentModified),
    ("REQUEST_CANCELLED", requestCancelled)]

/-- The codes that have a name, in ascending order. -/
def sorted : List (String × ErrorCode) :=
  named.mergeSort fun a b => decide (a.2.val.toInt ≤ b.2.val.toInt)

/-- How a code is shown. -/
def display (c : ErrorCode) : String :=
  String.ofList (Json.renderInt c.val.toInt)

/-- The code with the value of an integer in range. -/
def ofInt (n : Int) : ErrorCode := ⟨Int32.ofInt n⟩

end ErrorCode

/-- The error of a response. -/
structure Failure where
  code : ErrorCode
  /-- A description for a reader. -/
  message : String
  /-- Anything else about the failure. -/
  data : Option Json := none
  deriving DecidableEq, Repr

namespace Failure

/-- An unexpected failure. -/
def internal (message : String) : Failure := ⟨.internalError, message, none⟩

/-- How a failure is shown. -/
def display (f : Failure) : String :=
  f.message ++ " (" ++ f.code.display ++ ")"

/-- The fields of a failure. Data may be missing or `null`. -/
def shape : Json.Shape :=
  .record "ResponseError"
    [("code", .refused, .int32), ("message", .refused, .text),
      ("data", .filled .null, .optional .any)]

/-- The failure with the fields of a value that has the shape of one. -/
def ofFields (v : Json) : Failure :=
  { code := match v.index "code" with
      | .num n => .ofInt (n.toInt?.getD 0)
      | _ => .ofInt 0
    message := (v.index "message").asText?.getD ""
    data := match v.index "data" with
      | .null => none
      | d => some d }

/-- The failure that a JSON value is. -/
def ofJson (v : Json) : Except Json.Cause Failure :=
  (shape.ofJson v).map ofFields

/-- Reads a failure from JSON text. -/
def ofBytes (bs : List UInt8) : Except Json.Error Failure :=
  (shape.ofBytes bs).map ofFields

/-- The fields of a failure in the order of their declaration; data only if there are some. -/
def fields (f : Failure) : List (String × Json) :=
  [("code", .ofInt f.code.val.toInt), ("message", .str f.message)]
    ++ (f.data.map fun d => ("data", d)).toList

/-- The JSON value of a failure. -/
def toJson (f : Failure) : Json := .ofMembers f.fields

end Failure

end Parley

import Parley.Document.Selector
import Parley.Handler.Kind
import Parley.Message.Failure

/-!
# Handlers

A handler is described by what it does: what it expects as params, what happens as soon as it is
called, and, if it serves requests, how it comes to an answer.

- `Opening`, `Outcome`, `Handler`: the descriptions.
- `Handler.decode`: the params of a call in the form in which the handler sees them.
- `PayloadType`: the types that params and results may be declared to have.
- `Descriptor`: a handler that serves some documents only.
-/

namespace Parley

/-! ## Types of payloads -/

/-- A type that params or results are declared to have. -/
structure PayloadType where
  name : String
  shape : Json.Shape

namespace PayloadType

/-- Two fields that are natural numbers. -/
def position : Json.Shape :=
  .record "Position" [("line", .refused, .nat32), ("character", .refused, .nat32)]

/-- One field that is an integer. -/
def test : Json.Shape :=
  .record "Test" [("Value", .refused, .int32)]

/-- Any JSON value. -/
def value : PayloadType := ⟨"value", .any⟩

/-- Nothing. -/
def unit : PayloadType := ⟨"unit", .unit⟩

/-- The types that have a name. -/
def all : List PayloadType :=
  [value, ⟨"i32", .int32⟩, ⟨"u8", .nat8⟩, ⟨"bool", .bool⟩, ⟨"string", .text⟩, unit,
    ⟨"position", position⟩, ⟨"test", test⟩, ⟨"opt_i32", .optional .int32⟩,
    ⟨"vec_i32", .list .int32⟩, ⟨"map_i32", .table .int32⟩]

/-- The type of a name; any value for a name that no type has. -/
def ofName (name : String) : PayloadType :=
  (all.find? (·.name == name)).getD value

end PayloadType

/-! ## What handlers do -/

/-- What a handler does as soon as it is called. -/
inductive Opening where
  | nothing
  /-- It panics, with a text. -/
  | panic (text : String)
  /-- It sends a notification to the peer of its dispatcher. -/
  | send (method : String) (params : Json)
  /-- It takes back all registrations for a method. -/
  | retract (method : String)

/-- How a handler that serves requests comes to an answer. -/
inductive Outcome where
  /-- The answer is the params. -/
  | echo
  | value (v : Json)
  | fail (f : Failure)
  | panic (text : String)
  /-- The answer is a value that has no JSON form. -/
  | unserializable
  /-- The answer says whether the request was cancelled. -/
  | wasCancelled
  /-- It waits until the request is cancelled, and then gives the params or a failure. -/
  | hang (answers : Bool)
  /-- It waits until a gate is open, and then gives the params. -/
  | awaitGate (gate : String)
  /-- It sends the request on to the peer of its dispatcher, and gives the peer's answer. -/
  | forward (method : String)

/-- A handler. -/
structure Handler where
  kind : HandlerKind
  /-- What the params have to be. -/
  payload : Json.Shape
  /-- The name under which it reports. -/
  label : String
  opening : Opening := .nothing
  outcome : Outcome := .echo

/-- The params of a call in the form in which a handler sees them. -/
def Handler.decode (h : Handler) (params : Json) : Except Json.Cause Json :=
  h.payload.ofJson params

/-- The text of a panic that carries none. -/
def silentPanic : String := "handler panicked"

/-- The reason why a value has no JSON form. -/
def unserializable : Json.Cause := .keyNotString

/-- The failure of a request whose params do not fit. -/
def badParams (cause : Json.Cause) : Failure :=
  ⟨.invalidParams, "Failed to deserialize parameters: " ++ cause.message, none⟩

/-- The failure of a request whose answer has no JSON form. -/
def badResult (cause : Json.Cause) : Failure :=
  .internal ("Failed to serialize result: " ++ cause.message)

/-- The failure of a request that was cancelled. -/
def cancelledFailure : Failure := ⟨.requestCancelled, "cancelled", none⟩

/-- The failure of a request for a method that nobody serves. -/
def noSuchMethod (method : String) : Failure :=
  ⟨.methodNotFound, "No such method " ++ method, none⟩

/-- The failure of a request that was to be served by a handler for notifications. -/
def notForRequests : Failure := ⟨.methodNotFound, "method is a notification", none⟩

/-! ## Handlers for some documents -/

/-- A handler that serves the documents that match a selector. -/
structure Descriptor where
  method : String
  /-- Tells it from others for the method. -/
  key : String
  handler : Handler
  selector : Selector
  paramsType : String
  optionsType : Option String := none
  capabilitiesType : Option String := none

/-- The kind of its handler. -/
def Descriptor.kind (d : Descriptor) : HandlerKind := d.handler.kind

end Parley

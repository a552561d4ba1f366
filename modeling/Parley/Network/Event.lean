import Parley.Error
import Parley.Message.Basic

/-!
# What happens in a network

Everything that can be seen from outside is written down as it happens.

- `Log`: what is logged, with its wording.
- `Notice`: what handlers and the hooks of registrations report.
- `Event`: an entry of the journal.
- `Journal.accepted`, `Journal.received`, `Journal.written`, `Journal.cuts`: the history of one
  connection.
-/

namespace Parley

/-! ## Logs -/

/-- What is logged. -/
inductive Log where
  /-- A reply answers no request that waits. -/
  | unknownReply (id : Id)
  /-- The peer reports an error that belongs to no request. -/
  | unidentified (f : Failure)
  /-- A cancellation names no request. -/
  | badCancel (params : Json)
  /-- The params of a notification do not fit. -/
  | badParams (method : String) (cause : Json.Cause)
  | panicked (method text : String)
  /-- A notification was to be served by a handler for requests. -/
  | misrouted (method : String)
  | protocolError (e : ReadError)
  | writeFailed (text : String)
  deriving DecidableEq, Repr

namespace Log

/-- Whether it is an error; else it is a warning. -/
def isError : Log → Bool
  | .protocolError _ | .writeFailed _ => true
  | _ => false

/-- The text. -/
def message : Log → String
  | .unknownReply _ =>
    "lsp.response.unknown_id: dropping response for a request that is not outstanding"
  | .unidentified _ => "lsp.response.null_id: dropping error response without an id"
  | .badCancel _ => "lsp.cancel.invalid_params"
  | .badParams _ _ => "lsp.notification.invalid_params"
  | .panicked _ _ => "lsp.notification.handler_panicked"
  | .misrouted _ =>
    "lsp.notification.request_handler: notification routed to a request handler"
  | .protocolError _ => "lsp.connection.protocol_error"
  | .writeFailed _ => "lsp.connection.write_failed"

/-- The details, with their names. -/
def details : Log → List (String × String)
  | .unknownReply id => [("id", id.display)]
  | .unidentified f => [("code", f.code.display), ("message", f.message)]
  | .badCancel params => [("params", params.text)]
  | .badParams method cause => [("method", method), ("error", cause.message)]
  | .panicked method text => [("method", method), ("panic", text)]
  | .misrouted method => [("method", method)]
  | .protocolError e => [("error", e.message)]
  | .writeFailed text => [("error", text)]

/-- The text and the details. -/
def fields (l : Log) : List (String × String) :=
  ("message", l.message) :: l.details

end Log

/-! ## Events -/

/-- What a handler, known by its label, or the hook of a registration reports. -/
inductive Notice where
  /-- A handler was called, with the params that it saw, if it takes some. -/
  | entered (label : String) (params : Option Json)
  | sendFailed (label : String) (e : CallError)
  /-- A handler that waited for its cancellation saw it. -/
  | sawCancel (label : String)
  /-- A handler that waited for a gate passed it. -/
  | passedGate (label : String) (cancelled : Bool)
  /-- A handler that sent its request on has the answer. -/
  | called (label : String) (outcome : Except CallError Json)
  /-- A hook ran, and counted the descriptors that were left for a method. -/
  | hook (name : String) (left : Option Nat)
  deriving Repr

/-- What becomes of the two halves of a stream. -/
inductive StreamMark where
  /-- Nothing more will be written. -/
  | shutdown
  | readerDropped
  | writerDropped
  deriving DecidableEq, Repr

/-- An entry of the journal. Connections and calls are known by their numbers. -/
inductive Event where
  /-- A message was accepted for sending. -/
  | accepted (c : Nat) (m : Message)
  /-- A message was received and handed on. -/
  | received (c : Nat) (m : Message)
  | wrote (c : Nat) (bytes : List UInt8)
  | stream (c : Nat) (mark : StreamMark)
  | logged (l : Log)
  | reported (n : Notice)
  /-- The end of a connection began. -/
  | cut (c : Nat) (flush : Bool)
  /-- Writing to a stream failed, or passing on what was written. -/
  | broke (c : Nat)
  /-- A call began: its request is the message that is accepted next. -/
  | started (k : Nat)
  /-- A call is over, and who waits for it knows. -/
  | ended (k : Nat) (outcome : Except CallError Json)
  /-- A call was given up. -/
  | dropped (k : Nat)
  /-- The identifier of a call is that of another one now, so nobody will answer it. -/
  | stranded (k : Nat)
  /-- A run of a handler began, for a message that came in over a connection. -/
  | spawned (r c : Nat) (m : Message)
  /-- A request found no handler. -/
  | unserved (c : Nat) (id : Id) (method : String) (params : Json)
  /-- A run is over; it served the request with an identifier, if it served one. -/
  | finished (r c : Nat) (id : Option Id) (outcome : Except Failure Json)
  deriving Repr

/-- What has happened, the latest first. -/
abbrev Journal := List Event

namespace Journal

/-- The messages that a connection accepted for sending, in order. -/
def accepted (c : Nat) : Journal → List Message
  | [] => []
  | .accepted d m :: j => if d = c then accepted c j ++ [m] else accepted c j
  | _ :: j => accepted c j

/-- The messages that came in over a connection, in order. -/
def received (c : Nat) : Journal → List Message
  | [] => []
  | .received d m :: j => if d = c then received c j ++ [m] else received c j
  | _ :: j => received c j

/-- The bytes that a connection wrote. -/
def written (c : Nat) : Journal → List UInt8
  | [] => []
  | .wrote d bs :: j => if d = c then written c j ++ bs else written c j
  | _ :: j => written c j

/-- Whether what was queued was still to be written, each time that the end of a connection
began. -/
def cuts (c : Nat) : Journal → List Bool
  | [] => []
  | .cut d flush :: j => if d = c then cuts c j ++ [flush] else cuts c j
  | _ :: j => cuts c j

end Journal

end Parley

import Parley.Json.Error
import Parley.Message.Basic

/-!
# Why a stream of messages is refused

- `ReadError`: the reasons, those of the framing first and then those of a frame's body.
- `ReadError.message`: the wording.
-/

namespace Parley

/-- The bytes that a header line may have, its end included. -/
def maxHeaderLine : Nat := 8192

/-- The bytes that the body of a frame may have unless something else is agreed. -/
def defaultMaxContentLength : Nat := 64 * 1024 * 1024

/-- A reason to give up reading a stream: after any of them nobody knows where the next frame
starts. -/
inductive ReadError where
  /-- The stream itself failed. -/
  | stream (text : String)
  /-- A header line is no text. -/
  | headerNotText (fault : Utf8.Fault)
  /-- The stream ended inside a frame. -/
  | endInFrame
  /-- A header line has no colon. -/
  | noColon (line : List Char)
  /-- A header line has no end within the bytes that it may have. -/
  | lineTooLong
  | noLength
  /-- A length is no number. -/
  | badLength (value : List Char)
  | frameTooLarge (length limit : Nat)
  /-- The body is no JSON text. -/
  | badJson (error : Json.Error)
  /-- The body is no message. -/
  | badEnvelope (error : Message.Malformed)
  deriving DecidableEq, Repr

/-- The wording. -/
def ReadError.message : ReadError → String
  | .stream text => text
  | .headerNotText fault => fault.message
  | .endInFrame => "stream ended inside a frame"
  | .noColon line => "invalid header: " ++ Text.quote line
  | .lineTooLong =>
    "invalid header: \"header line exceeds " ++ toString maxHeaderLine ++ " bytes\""
  | .noLength => "missing Content-Length header"
  | .badLength value => "invalid Content-Length: " ++ Text.quote value
  | .frameTooLarge length limit =>
    "frame of " ++ toString length ++ " bytes exceeds the " ++ toString limit ++ " byte limit"
  | .badJson error => "malformed JSON payload: " ++ error.message
  | .badEnvelope error => "invalid message envelope: " ++ error.message

/-- The message in the body of a frame. -/
def Message.ofBytes (body : List UInt8) : Except ReadError Message :=
  match Json.parse body with
  | .error e => .error (.badJson e)
  | .ok v =>
    match Message.ofJson v with
    | .error e => .error (.badEnvelope e)
    | .ok m => .ok m

end Parley

import Parley.Document.Selector
import Parley.Frame.Error
import Parley.Handler.Kind

/-!
# What may go wrong for a user of a connection
-/

namespace Parley

/-- Why a call fails. -/
inductive CallError where
  /-- The peer sent something that is no message. -/
  | stream (error : ReadError)
  | duplicateHandler (method : String) (kind : HandlerKind)
  | notConnected
  /-- The connection or the dispatcher is in use. -/
  | alreadyConnected
  /-- The peer answered with a failure. -/
  | failure (f : Failure)
  /-- The connection went away before the answer came. -/
  | connectionClosed
  /-- The answer did not come in time. -/
  | timedOut (method : String)
  /-- A payload is not of the expected type. -/
  | conversion (cause : Json.Cause)
  | badGlob (error : BadGlob)
  deriving DecidableEq, Repr

/-- The wording. -/
def CallError.message : CallError → String
  | .stream e => "protocol error: " ++ e.message
  | .duplicateHandler method kind =>
    "a " ++ kind.display ++ " handler for `" ++ method ++ "` is already registered"
  | .notConnected => "not connected"
  | .alreadyConnected => "already connected"
  | .failure f => f.display
  | .connectionClosed => "connection closed before the request completed"
  | .timedOut method => "request `" ++ method ++ "` timed out"
  | .conversion cause => "payload conversion failed: " ++ cause.message
  | .badGlob e => "invalid glob pattern: " ++ e.message

end Parley

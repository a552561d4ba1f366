/-!
# The kinds of handlers
-/

namespace Parley

/-- What a handler takes and gives. -/
inductive HandlerKind where
  /-- Takes the params of a notification. -/
  | notification
  /-- Takes nothing. -/
  | emptyNotification
  /-- Answers a request with a value. -/
  | request
  /-- Answers a request with nothing but its end. -/
  | command
  deriving DecidableEq, Repr

/-- Whether a handler serves requests. -/
def HandlerKind.isRequest : HandlerKind → Bool
  | .request | .command => true
  | .notification | .emptyNotification => false

/-- The name of a kind. -/
def HandlerKind.display : HandlerKind → String
  | .notification => "notification"
  | .emptyNotification => "empty notification"
  | .request => "request"
  | .command => "command request"

end Parley

import Parley.Document.Routing
import Parley.Error
import Parley.Handler.Basic
import Parley.Message.Id

/-!
# Dispatchers

A dispatcher knows which handler serves which method. A method has at most one plain handler for
notifications and one for requests, and any number of handlers for some documents; where there are
such, the plain one does not count.

- `Dispatcher.handle`, `Dispatcher.register`, `Dispatcher.remove`: the registrations.
- `Dispatcher.handlersFor`, `Dispatcher.handlerFor`: the handlers of a message.
- `Dispatcher.observe`: the documents that the peer has open.
-/

namespace Parley

/-- A registered descriptor, under a number that no other registration has. -/
structure Entry where
  serial : Nat
  descriptor : Descriptor

/-- The selector of an entry. -/
def Entry.selector (e : Entry) : Selector := e.descriptor.selector

/-- A dispatcher. -/
structure Dispatcher where
  /-- The plain handlers for notifications, by their methods. -/
  notifications : List (String × Handler) := []
  /-- The plain handlers for requests, by their methods. -/
  requests : List (String × Handler) := []
  /-- The handlers for some documents, in the order of their registration. -/
  entries : List Entry := []
  languages : Languages := []
  /-- The handlers that serve a request, by the request's identifier. -/
  inflight : List (Id × Nat) := []
  /-- The connection that it was bound to last. -/
  bound : Option Nat := none
  /-- Whether nobody holds it any more. -/
  gone : Bool := false

namespace Dispatcher

/-! ## Registrations -/

/-- Registers a plain handler. -/
def handle (d : Dispatcher) (method : String) (h : Handler) : Except CallError Dispatcher :=
  if h.kind.isRequest then
    if (d.requests.lookup method).isSome then .error (.duplicateHandler method h.kind)
    else .ok { d with requests := d.requests ++ [(method, h)] }
  else if (d.notifications.lookup method).isSome then .error (.duplicateHandler method h.kind)
  else .ok { d with notifications := d.notifications ++ [(method, h)] }

/-- Registers a descriptor behind all others. -/
def register (d : Dispatcher) (e : Entry) : Except CallError Dispatcher :=
  if d.entries.any fun f =>
      f.descriptor.method == e.descriptor.method && f.descriptor.key == e.descriptor.key then
    .error (.duplicateHandler e.descriptor.method e.descriptor.kind)
  else .ok { d with entries := d.entries ++ [e] }

/-- Takes one descriptor out. -/
def remove (d : Dispatcher) (serial : Nat) : Dispatcher :=
  { d with entries := d.entries.filter fun e => e.serial != serial }

/-- The descriptors for a method, in the order of their registration. -/
def entriesFor (d : Dispatcher) (method : String) : List Entry :=
  d.entries.filter fun e => e.descriptor.method == method

/-! ## Routing -/

/-- What a notification tells about open documents before it is routed. -/
def observe (d : Dispatcher) (method : String) (params : Json) : Dispatcher :=
  { d with languages := d.languages.opened method params }

/-- What a notification tells about open documents after it was routed. -/
def observeClosed (d : Dispatcher) (method : String) (params : Json) : Dispatcher :=
  { d with languages := d.languages.closed method params }

/-- The handlers that a notification starts. -/
def handlersFor (d : Dispatcher) (method : String) (params : Json) : List Handler :=
  let candidates := (d.entriesFor method).filter fun e => !e.descriptor.kind.isRequest
  if candidates.isEmpty then (d.notifications.lookup method).toList
  else (routed Entry.selector d.languages params candidates).map fun e => e.descriptor.handler

/-- The handler that answers a request. -/
def handlerFor (d : Dispatcher) (method : String) (params : Json) : Option Handler :=
  let candidates := (d.entriesFor method).filter fun e => e.descriptor.kind.isRequest
  if candidates.isEmpty then d.requests.lookup method
  else (chosen Entry.selector d.languages params candidates).map fun e => e.descriptor.handler

/-! ## Requests under way -/

/-- Notes which handler serves a request. -/
def enter (d : Dispatcher) (id : Id) (run : Nat) : Dispatcher :=
  { d with inflight := (id, run) :: d.inflight.filter fun e => e.1 != id }

/-- Forgets the handler that serves a request. -/
def leave (d : Dispatcher) (id : Id) : Dispatcher :=
  { d with inflight := d.inflight.filter fun e => e.1 != id }

/-- A dispatcher for a reader. -/
def describe (d : Dispatcher) (connected : Bool) : String :=
  "Dispatcher \x7b notifications: " ++ toString d.notifications.length
    ++ ", requests: " ++ toString d.requests.length
    ++ ", descriptors: " ++ toString d.entries.length
    ++ ", connected: " ++ toString connected ++ " \x7d"

end Dispatcher

end Parley

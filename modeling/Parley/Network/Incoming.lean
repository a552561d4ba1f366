import Parley.Network.Handling

/-!
# What comes in

- `Network.receive`: hands on a message that came in over a connection.
- `Network.route`: starts the handlers that a message asks for.
-/

namespace Parley.Network

/-- Takes in a reply. -/
def receiveReply (w : Network) (c : Nat) (r : Reply) : Network :=
  match (w.link? c).bind fun l => l.answer r.id with
  | none => w.log (.unknownReply r.id)
  | some (k, l) => (w.setLink c l).resolveCall k (.answered r)

/-- Cancels the request that params name, if it is being served. -/
def receiveCancel (w : Network) (d : Nat) (params : Json) : Network :=
  match Id.ofJson? (params.index "id") with
  | none => w.log (.badCancel params)
  | some id =>
    match (w.dispatchers[d]?).bind fun x => x.inflight.lookup id with
    | none => w
    | some r => w.cancelRun r

/-- Starts the handlers of a notification. What it says about open documents counts for its own
routing: a document is closed only afterwards. -/
def receiveNotification (w : Network) (c d : Nat) (method : String) (params : Json) : Network :=
  if method = cancelMethod then w.receiveCancel d params
  else
    match w.dispatchers[d]? with
    | none => w
    | some x =>
      let x := x.observe method params
      let handlers := x.handlersFor method params
      let w := w.modifyDispatcher d fun _ => x.observeClosed method params
      handlers.foldl (fun w handler =>
        w.spawn { conn := c, dispatcher := d, id := none, method, handler, params }) w

/-- Starts the handler of a request; without one the answer is known at once. -/
def receiveRequest (w : Network) (c d : Nat) (id : Id) (method : String) (params : Json) :
    Network :=
  match (w.dispatchers[d]?).bind fun x => x.handlerFor method params with
  | none => (w.emit (.unserved c id method params)).reply c (.err id (noSuchMethod method))
  | some handler =>
    let r := w.runs.length
    (w.modifyDispatcher d fun x => x.enter id r).spawn
      { conn := c, dispatcher := d, id := some id, method, handler, params }

/-- Starts what a message asks for that came in over a connection, whose dispatcher is given. -/
def route (w : Network) (c d : Nat) : Message → Network
  | .reply r => w.receiveReply c r
  | .unidentified f => w.log (.unidentified f)
  | .notification method params => w.receiveNotification c d method params
  | .request id method params => w.receiveRequest c d id method params

/-- Hands on a message that came in over a connection. -/
def receive (w : Network) (c : Nat) (m : Message) : Network :=
  match (w.conns[c]?).bind (·.dispatcher) with
  | none => w
  | some d => (w.emit (.received c m)).route c d m

end Parley.Network

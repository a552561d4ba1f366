import Parley.Network.Outbound
import Parley.Network.Registry

/-!
# Runs of handlers

A message that a handler serves starts a run of it, which is a task of its own. A run may wait: to
be cancelled, for a gate, or for a call of its own.

- `Network.spawn`: starts a run.
- `Network.finish`: ends one; a request gets its answer.
- `Network.runHandler`: lets a run go on as far as it can.
- `Network.openGate`: lets the runs go on that wait for a gate.
-/

namespace Parley

/-- What a handler answers if its own answer has no JSON form. A command has nothing to say but
that it is done. -/
def Handler.unserializableAnswer (h : Handler) : Except Failure Json :=
  if h.kind = .command then .ok .null else .error (badResult unserializable)

/-- What is answered for a handler: a command gives no value. -/
def Handler.answer (h : Handler) : Except Failure Json → Except Failure Json
  | .ok v => .ok (if h.kind = .command then .null else v)
  | .error f => .error f

/-- A reply with the outcome of a request. -/
def Reply.ofOutcome (id : Id) : Except Failure Json → Reply
  | .ok v => .ok id v
  | .error f => .err id f

/-- The failure that a handler passes on when a call of its own fails. -/
def CallError.toFailure : CallError → Failure
  | .failure f => f
  | e => .internal e.message

namespace Network

/-- Adds a run, as the last task in the queue. -/
def spawn (w : Network) (x : Run) : Network :=
  let r := w.runs.length
  ({ w with runs := w.runs ++ [x] }.emit (.spawned r x.conn x.message)).wake (.handler r)

/-- Reports something. -/
def report (w : Network) (n : Notice) : Network := w.emit (.reported n)

/-- Ends a run. The dispatcher forgets the request, and its reply goes out unless the connection
that it came from is at its end. -/
def finish (w : Network) (r : Nat) (outcome : Except Failure Json) : Network :=
  match w.runs[r]? with
  | none => w
  | some x =>
    let w := w.modifyRun r fun x => { x with stage := .finished outcome }
    let w := w.emit (.finished r x.conn x.id outcome)
    match x.id with
    | none => w
    | some id =>
      -- The table of a dispatcher knows requests by their identifiers alone.
      (w.modifyDispatcher x.dispatcher fun d => d.leave id).reply x.conn (.ofOutcome id outcome)

/-- Ends a run with the answer of its handler. -/
def answer (w : Network) (r : Nat) (x : Run) (outcome : Except Failure Json) : Network :=
  w.finish r (x.handler.answer outcome)

/-! ## Waiting -/

/-- Ends a run that waited to be cancelled and was. -/
def endHanging (w : Network) (r : Nat) (x : Run) (answers : Bool) (params : Json) : Network :=
  (w.report (.sawCancel x.handler.label)).answer r x
    (if answers then .ok params else .error cancelledFailure)

/-- Lets a run wait until it is cancelled. -/
def hang (w : Network) (r : Nat) (x : Run) (answers : Bool) (params : Json) : Network :=
  if w.isCancelled x then w.endHanging r x answers params
  else w.modifyRun r fun x => { x with stage := .hanging params }

/-- Ends a run that waited for a gate. -/
def passGate (w : Network) (r : Nat) (x : Run) (params : Json) : Network :=
  (w.report (.passedGate x.handler.label (w.isCancelled x))).answer r x (.ok params)

/-- Lets a run wait until a gate is open. -/
def awaitGate (w : Network) (r : Nat) (x : Run) (gate : String) (params : Json) : Network :=
  if w.openGates.contains gate then w.passGate r x params
  else
    let w := w.modifyRun r fun x => { x with stage := .atGate gate params }
    { w with gateQueue := w.gateQueue ++ [(gate, r)] }

/-- Ends a run with the outcome of its own call. -/
def passOn (w : Network) (r : Nat) (x : Run) (outcome : Except CallError Json) : Network :=
  (w.report (.called x.handler.label outcome)).answer r x (outcome.mapError CallError.toFailure)

/-- Goes on with a run that waits for a call of its own, if it is over. -/
def checkOwnCall (w : Network) (r : Nat) (x : Run) (k : Nat) : Network :=
  let w := w.checkCall k
  match (w.calls[k]?).map Call.state with
  | some (.ended outcome) => w.passOn r x outcome
  | _ => w.modifyRun r fun x => { x with stage := .calling k }

/-! ## The work of handlers -/

/-- What a handler does as soon as it is called. A panic ends it, with a text. -/
def opening (w : Network) (x : Run) : Except String Network :=
  match x.handler.opening with
  | .nothing => .ok w
  | .panic text => .error text
  | .send method params =>
    match w.sendVia x.dispatcher (.notification method params) with
    | .ok w => .ok w
    | .error e => .ok (w.report (.sendFailed x.handler.label e))
  | .retract method => .ok (w.unregisterAll x.dispatcher method)

/-- Comes to the answer of a request with the params that the handler saw. -/
def conclude (w : Network) (r : Nat) (x : Run) (params : Json) : Network :=
  match x.handler.outcome with
  | .echo => w.answer r x (.ok params)
  | .value v => w.answer r x (.ok v)
  | .fail f => w.answer r x (.error f)
  | .panic text => w.answer r x (.error (.internal text))
  | .unserializable => w.answer r x x.handler.unserializableAnswer
  | .wasCancelled => w.answer r x (.ok (.bool (w.isCancelled x)))
  | .hang answers => w.hang r x answers params
  | .awaitGate gate => w.awaitGate r x gate params
  | .forward method =>
    match w.startCall x.dispatcher method params (some .any) (some (.handler r)) with
    | .error e => w.passOn r x (.error e)
    | .ok (k, w) => w.checkOwnCall r x k

/-- Calls a handler for a notification. -/
def serveNotification (w : Network) (r : Nat) (x : Run) (params : Option Json) : Network :=
  let entered := w.report (.entered x.handler.label params)
  match entered.opening x with
  | .ok w => w.finish r (.ok .null)
  | .error text => (entered.log (.panicked x.method text)).finish r (.ok .null)

/-- Calls a handler for a request with the params that it sees. -/
def serveRequest (w : Network) (r : Nat) (x : Run) (params : Json) : Network :=
  let entered := w.report (.entered x.handler.label (some params))
  match entered.opening x with
  | .ok w => w.conclude r x params
  | .error text => entered.answer r x (.error (.internal text))

/-- Has a handler serve a notification. One for requests is not called. -/
def runNotification (w : Network) (r : Nat) (x : Run) : Network :=
  match x.handler.kind with
  | .emptyNotification => w.serveNotification r x none
  | .notification =>
    match x.handler.decode x.params with
    | .error cause => (w.log (.badParams x.method cause)).finish r (.ok .null)
    | .ok params => w.serveNotification r x (some params)
  | .request | .command => (w.log (.misrouted x.method)).finish r (.ok .null)

/-- Has a handler serve a request. One for notifications is not called. -/
def runRequest (w : Network) (r : Nat) (x : Run) : Network :=
  match x.handler.kind with
  | .request | .command =>
    match x.handler.decode x.params with
    | .error cause => w.finish r (.error (badParams cause))
    | .ok params => w.serveRequest r x params
  | .notification | .emptyNotification => w.finish r (.error notForRequests)

/-- Calls a handler for what it is registered for, which is what the message is. -/
def begin (w : Network) (r : Nat) (x : Run) : Network :=
  if x.handler.kind.isRequest then w.runRequest r x else w.runNotification r x

/-- Lets a run go on as far as it can. -/
def runHandler (w : Network) (r : Nat) : Network :=
  match w.runs[r]? with
  | none => w
  | some x =>
    match x.stage with
    | .fresh => w.begin r x
    | .hanging params =>
      match x.handler.outcome with
      | .hang answers => if w.isCancelled x then w.endHanging r x answers params else w
      | _ => w
    | .atGate gate params =>
      if w.openGates.contains gate then w.passGate r x params else w
    | .calling k => w.checkOwnCall r x k
    | .finished _ => w

/-! ## Waking runs -/

/-- Opens a gate, and wakes the runs that wait for it in the order of their arrival. -/
def openGate (w : Network) (gate : String) : Network :=
  let (here, elsewhere) := w.gateQueue.partition fun e => e.1 == gate
  let w := { w with openGates := gate :: w.openGates, gateQueue := elsewhere }
  here.foldl (fun w e => w.wake (.handler e.2)) w

/-- Cancels the request that a run serves. -/
def cancelRun (w : Network) (r : Nat) : Network :=
  let w := w.modifyRun r fun x => { x with cancelled := true }
  if (w.runs[r]?).any Run.isHanging then w.wake (.handler r) else w

end Network

end Parley

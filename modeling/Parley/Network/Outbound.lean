import Parley.Network.Basic

/-!
# What goes out

- `Network.sendOn`: puts a message into the queue of a connection.
- `Network.startCall`: sends a request.
- `Network.checkCall`: looks whether a call is over.
- `Network.dropCall`: gives a call up; the peer is told.
- `Network.advance`: lets time pass.
-/

namespace Parley

/-- The method that cancels a request. -/
def cancelMethod : String := "$/cancelRequest"

/-- The notification that cancels a request. -/
def cancelMessage (id : Id) : Message :=
  .notification cancelMethod (.ofMembers [("id", id.toJson)])

/-- The time after which a call has lasted too long. A limit beyond all dates stands for thirty
years. -/
def deadlineAfter (clock limit : Nat) : Nat :=
  if limit < 0x8000000000000000 then clock + limit else clock + 946080000

/-- What a reply means for a call. -/
def Call.outcomeOf (k : Call) (r : Reply) : Except CallError Json :=
  match r.outcome with
  | .error f => .error (.failure f)
  | .ok v =>
    match k.shape with
    | none => .ok .null
    | some shape => (shape.ofJson v).mapError .conversion

namespace Network

/-! ## Messages -/

/-- Puts a message into the queue of a connection whose link is open. -/
def sendOn (w : Network) (c : Nat) (m : Message) : Option Network :=
  ((w.link? c).bind fun l => l.send m).map fun l =>
    ((w.setLink c l).emit (.accepted c m)).wakeIdleWriter c

/-- Puts a message into the queue of the connection that a dispatcher is bound to. -/
def sendVia (w : Network) (d : Nat) (m : Message) : Except CallError Network :=
  match (w.boundConn? d).bind fun c => w.sendOn c m with
  | none => .error .notConnected
  | some w => .ok w

/-- Answers a request, if the link of its connection is still open. -/
def reply (w : Network) (c : Nat) (r : Reply) : Network :=
  (w.sendOn c (.reply r)).getD w

/-! ## Calls -/

/-- Takes its identifier away from a call: nobody will answer it any more. -/
def strand (w : Network) (k : Nat) : Network :=
  (w.modifyCall k fun x => x.resolve .closed).emit (.stranded k)

/-- Sends a request through a dispatcher, and gives the number of the call. Without a waiter of its
own it is awaited from outside. An identifier that is given again while a call still waits under it
is taken away from that call. -/
def startCall (w : Network) (d : Nat) (method : String) (params : Json)
    (shape : Option Json.Shape) (waiter : Option Task) : Except CallError (Nat × Network) :=
  let k := w.calls.length
  let started := (w.boundConn? d).bind fun c =>
    (w.link? c).bind fun l => (l.start k method params).map fun (id, l') =>
      (c, id, l.pending.lookup id, l')
  match started with
  | none => .error .notConnected
  | some (c, id, former, l) =>
    let limit := (w.conns[c]?).bind (·.config.requestTimeout)
    let call : Call :=
      { conn := c, id, method, shape
        deadline := limit.map (deadlineAfter w.clock)
        waiter := waiter.getD (.caller k) }
    let w := former.elim w w.strand
    let w := { w with calls := w.calls ++ [call] }
    let w := (w.setLink c l).emit (.started k)
    let w := (w.emit (.accepted c (.request id method params))).wakeIdleWriter c
    .ok (k, former.elim w w.wakeCall)

/-- Ends a call. -/
def endCall (w : Network) (k : Nat) (outcome : Except CallError Json) : Network :=
  (w.modifyCall k fun x => { x with state := .ended outcome }).emit (.ended k outcome)

/-- Forgets the request of a call that still waits for its reply, and tells the peer. The identifier
may be that of another call by now. -/
def abandon (w : Network) (k c : Nat) (id : Id) : Network :=
  match (w.link? c).bind fun l => l.answer id with
  | none => w
  | some (n, l) =>
    let w := w.setLink c l
    let w := if n = k then w else (w.strand n).wakeCall n
    (w.sendOn c (cancelMessage id)).getD w

/-- Looks whether a call is over. A reply counts before the end of the time. -/
def checkCall (w : Network) (k : Nat) : Network :=
  match w.calls[k]? with
  | none => w
  | some x =>
    match x.state with
    | .answered r => w.endCall k (x.outcomeOf r)
    | .closed => w.endCall k (.error .connectionClosed)
    | .waiting =>
      -- The peer is told before the call ends, so that nothing its waiter sends comes first.
      if x.deadline.any (· ≤ w.clock) then
        (w.abandon k x.conn x.id).endCall k (.error (.timedOut x.method))
      else w
    | .ended _ | .dropped => w

/-- Gives a call up that is not over. -/
def dropCall (w : Network) (k : Nat) : Network :=
  match w.calls[k]? with
  | none => w
  | some x =>
    match x.state with
    | .ended _ | .dropped => w
    | .waiting | .answered _ | .closed =>
      ((w.abandon k x.conn x.id).modifyCall k fun x => { x with state := .dropped }).emit
        (.dropped k)

/-- Changes how far a call is that waits, and wakes who waits for it. -/
def resolveCall (w : Network) (k : Nat) (state : CallState) : Network :=
  match w.calls[k]? with
  | none => w
  | some x =>
    if x.isWaiting then
      (w.modifyCall k fun x => { x with state }).wake x.waiter
    else w

/-- The calls that wait and have lasted too long, by the end of their time. -/
def overdue (w : Network) : List (Nat × Nat) :=
  let late := w.calls.zipIdx.filterMap fun (x, k) =>
    if x.isWaiting then (x.deadline.filter (· ≤ w.clock)).map fun t => (t, k) else none
  late.mergeSort fun a b => a.1 ≤ b.1

/-- Lets seconds pass, and wakes who has waited too long. -/
def advance (w : Network) (secs : Nat) : Network :=
  let w := { w with clock := w.clock + secs }
  w.overdue.foldl (fun w e => w.wakeCall e.2) w

end Network

end Parley

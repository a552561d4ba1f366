import Parley.Network.Outbound

/-!
# The beginning and the end of connections

- `Network.connect`: binds a connection and a dispatcher to each other and starts the two loops.
- `Network.teardown`: begins the end of a connection, in one cut and once.
- `Network.stopReading`, `Network.stopWriting`: the ends of the loops; the second one closes the
  connection.
-/

namespace Parley.Network

/-! ## The beginning -/

/-- Binds a dispatcher to a connection, unless it is bound to one whose link is open. -/
def bind (w : Network) (d c : Nat) : Except CallError Network :=
  if (w.dispatchers[d]?).isNone || (w.boundConn? d).isSome then .error .alreadyConnected
  else .ok (w.modifyDispatcher d fun x => { x with bound := some c })

/-- Connects. Only a fresh connection can be connected, and only to a dispatcher that is there and
is bound to no open link. That the dispatcher refuses is known late: by then the connection has left
its first phase and has let go of its stream, and both are taken back. -/
def connect (w : Network) (c d : Nat) : Except CallError Unit × Network :=
  match (w.conns[c]?).map Connection.phase with
  | some .disconnected =>
    let w := w.modifyConn c fun x => { x with phase := .connecting }
    if (w.conns[c]?).any (·.hasStream) then
      let w := w.modifyConn c fun x => { x with hasStream := false }
      match w.bind d c with
      | .error e => (.error e, w.modifyConn c Connection.rollBack)
      | .ok w =>
        (.ok (), ((w.modifyConn c fun x => x.start d).wake (.reader c)).wake (.writer c))
    else (.error .connectionClosed, w.modifyConn c Connection.giveBack)
  | some .closed => (.error .connectionClosed, w)
  | _ => (.error .alreadyConnected, w)

/-! ## The end of a stream -/

/-- Closes a pipe, and wakes who reads from it and who writes into it. -/
def closePipe (w : Network) (p : Nat) : Network :=
  match w.pipes[p]? with
  | none => w
  | some x =>
    let w := { w with pipes := w.pipes.modify p fun x => { x with closed := true } }
    (w.wakeReader x.reader).wakeBusyWriter x.writer

/-- Drops the stream of a connection, of which nothing is in use any more. -/
def dropStream (w : Network) (c : Nat) : Network :=
  match (w.conns[c]?).map Connection.stream with
  | some (.pipes incoming outgoing) => (w.closePipe outgoing).closePipe incoming
  | _ => w

/-- Closes a connection both of whose loops have stopped. -/
def closeIfFinished (w : Network) (c : Nat) : Network :=
  if (w.conns[c]?).any (·.isFinished) then
    (w.modifyConn c fun x => { x with phase := .closed }).dropStream c
  else w

/-- The loop that reads stops. -/
def stopReading (w : Network) (c : Nat) : Network :=
  let w := w.modifyConn c fun x => { x with reading := .stopped }
  (w.emit (.stream c .readerDropped)).closeIfFinished c

/-- The loop that writes stops: what is queued is thrown away, and the stream is shut down. -/
def stopWriting (w : Network) (c : Nat) : Network :=
  let w := w.modifyConn c fun x =>
    { x with writing := .stopped, link := x.link.map fun l => { l with queue := [] } }
  let w := match (w.conns[c]?).map Connection.stream with
    | some (.pipes _ outgoing) => w.closePipe outgoing
    | _ => w
  ((w.emit (.stream c .shutdown)).emit (.stream c .writerDropped)).closeIfFinished c

/-! ## The end of a connection -/

/-- The runs that came over a connection and wait to be cancelled. -/
def hangingRuns (w : Network) (c : Nat) : List Nat :=
  w.runs.zipIdx.filterMap fun (x, r) => if x.conn = c && x.isHanging then some r else none

/-- Begins the end of a connection that is alive: its link is closed, every call over it fails, and
its reader and all its handlers are told to stop. With `flush` what is queued is still written. A
second time nothing changes. -/
def teardown (w : Network) (c : Nat) (flush : Bool) : Network :=
  match w.conns[c]? with
  | none => w
  | some x =>
    if x.phase.isLive then
      let w := (w.modifyConn c fun x => x.cut flush).emit (.cut c flush)
      -- An idle writer finds the end mark; without one it is woken last, to stop at once.
      let w := if flush then w.wakeIdleWriter c else w
      let w := x.waiters.foldl (fun w k => w.resolveCall k .closed) w
      let w := if flush then w else (w.wakeIdleWriter c).wakeBusyWriter c
      let w := (w.hangingRuns c).foldl (fun w r => w.wake (.handler r)) w
      w.wakeReader c
    else w

/-- Gives the stream of a connection back that was never connected. -/
def dropUnused (w : Network) (c : Nat) : Network :=
  ((w.emit (.stream c .readerDropped)).emit (.stream c .writerDropped)).dropStream c

/-- Disconnects. A connection that was never connected is closed at once. -/
def disconnect (w : Network) (c : Nat) (flush : Bool) : Network :=
  match (w.conns[c]?).map Connection.phase with
  | some .disconnected => (w.modifyConn c Connection.giveBack).dropUnused c
  | _ => w.teardown c flush

/-- Drops the connection itself; its loops go on until they stop. Nobody can use it again, so one
that was never connected is closed as well. -/
def dropConn (w : Network) (c : Nat) : Network := w.disconnect c false

end Parley.Network

import Parley.Network.Event
import Parley.Peer.Connection
import Parley.Peer.Dispatcher

/-!
# Networks

A network is everything that runs together: connections with their streams, dispatchers with what is
registered, the calls that go out and the handlers that run. One thread does all the work. A task
that can go on stands in a queue; it does what it can do at once, and then the next one has its
turn. Each thing is known by its number, which is its place in its list and never changes.

- `Task`: what may stand in the queue.
- `Call`, `Run`, `Registration`: the parts that are no type of their own elsewhere.
- `Network`: the whole.
- `Network.wake`, `Network.emit`: the queue and the journal.
-/

namespace Parley

/-! ## Parts -/

/-- What may wait for its turn, by its number. -/
inductive Task where
  /-- The loop of a connection that reads. -/
  | reader (c : Nat)
  /-- The loop of a connection that writes. -/
  | writer (c : Nat)
  /-- A run of a handler. -/
  | handler (r : Nat)
  /-- Who waits for a call from outside. -/
  | caller (k : Nat)
  deriving DecidableEq, Repr

/-- How far a call is. -/
inductive CallState where
  | waiting
  /-- The reply is here, and nobody has looked at it. -/
  | answered (r : Reply)
  /-- The connection went away before the reply came. -/
  | closed
  | ended (outcome : Except CallError Json)
  /-- Nobody waits for it any more. -/
  | dropped
  deriving Repr

/-- A request that was sent. -/
structure Call where
  /-- The connection over which it was sent. -/
  conn : Nat
  id : Id
  method : String
  /-- What the result has to be; a command takes any result and gives `null`. -/
  shape : Option Json.Shape
  /-- The time at which it has lasted too long. -/
  deadline : Option Nat
  /-- Who waits for it. -/
  waiter : Task
  state : CallState := .waiting

/-- Whether a reply may still end a call. -/
def Call.isWaiting (k : Call) : Bool :=
  match k.state with
  | .waiting => true
  | _ => false

/-- Changes how far a call is that waits. -/
def Call.resolve (s : CallState) (x : Call) : Call :=
  if x.isWaiting then { x with state := s } else x

/-- How far a run of a handler is. The params are those that the handler saw. -/
inductive Stage where
  /-- It was not called yet. -/
  | fresh
  /-- It waits to be cancelled. -/
  | hanging (params : Json)
  | atGate (gate : String) (params : Json)
  /-- It waits for a call of its own. -/
  | calling (k : Nat)
  | finished (outcome : Except Failure Json)
  deriving Repr

/-- A run of a handler. -/
structure Run where
  /-- The connection over which the message came. -/
  conn : Nat
  dispatcher : Nat
  /-- The request that is served; none for a notification. -/
  id : Option Id
  method : String
  handler : Handler
  params : Json
  /-- Whether the peer cancelled the request. -/
  cancelled : Bool := false
  stage : Stage := .fresh

/-- The message that a run serves. -/
def Run.message (r : Run) : Message :=
  r.id.elim (.notification r.method r.params) fun id => .request id r.method r.params

/-- Whether a run waits to be cancelled. -/
def Run.isHanging (r : Run) : Bool :=
  match r.stage with
  | .hanging _ => true
  | _ => false

/-- What is done when a registration is taken back. -/
inductive Retraction where
  /-- The descriptor is taken out of its dispatcher. -/
  | remove
  /-- A hook runs. It may count what is left for a method of a dispatcher. -/
  | hook (name : String) (counts : Option (Nat × String))
  deriving DecidableEq, Repr

/-- A descriptor that was registered, or was meant to be. -/
structure Registration where
  descriptor : Descriptor
  dispatcher : Nat
  /-- What is done when it is taken back; none once that has happened. -/
  actions : Option (List Retraction)

/-! ## The whole -/

/-- Everything that runs together. -/
structure Network where
  conns : List Connection := []
  pipes : List Pipe := []
  dispatchers : List Dispatcher := []
  registrations : List Registration := []
  runs : List Run := []
  calls : List Call := []
  /-- The gates that are open. -/
  openGates : List String := []
  /-- The runs that wait at gates, in the order of their arrival. -/
  gateQueue : List (String × Nat) := []
  /-- The time, in seconds. -/
  clock : Nat := 0
  /-- The tasks that can go on, the first one next. -/
  ready : List Task := []
  journal : Journal := []

namespace Network

/-- Changes a connection. -/
def modifyConn (w : Network) (c : Nat) (f : Connection → Connection) : Network :=
  { w with conns := w.conns.modify c f }

/-- Changes a dispatcher. -/
def modifyDispatcher (w : Network) (d : Nat) (f : Dispatcher → Dispatcher) : Network :=
  { w with dispatchers := w.dispatchers.modify d f }

/-- Changes a run. -/
def modifyRun (w : Network) (r : Nat) (f : Run → Run) : Network :=
  { w with runs := w.runs.modify r f }

/-- Changes a call. -/
def modifyCall (w : Network) (k : Nat) (f : Call → Call) : Network :=
  { w with calls := w.calls.modify k f }

/-- Writes into the journal. -/
def emit (w : Network) (e : Event) : Network :=
  { w with journal := e :: w.journal }

/-- Logs something. -/
def log (w : Network) (l : Log) : Network := w.emit (.logged l)

/-- Puts a task at the end of the queue, unless it stands there already. -/
def wake (w : Network) (t : Task) : Network :=
  if w.ready.contains t then w else { w with ready := w.ready ++ [t] }

/-- Wakes who waits for a call. -/
def wakeCall (w : Network) (k : Nat) : Network :=
  (w.calls[k]?).elim w fun x => w.wake x.waiter

/-- Wakes the reader of a connection. -/
def wakeReader (w : Network) (c : Nat) : Network :=
  match (w.conns[c]?).map Connection.reading with
  | some (.running _) => w.wake (.reader c)
  | _ => w

/-- Wakes the writer of a connection if it waits for a message. -/
def wakeIdleWriter (w : Network) (c : Nat) : Network :=
  match (w.conns[c]?).map Connection.writing with
  | some .idle => w.wake (.writer c)
  | _ => w

/-- Wakes the writer of a connection if it waits inside a message. -/
def wakeBusyWriter (w : Network) (c : Nat) : Network :=
  match (w.conns[c]?).map Connection.writing with
  | some (.busy _) => w.wake (.writer c)
  | _ => w

/-- The link of a connection. -/
def link? (w : Network) (c : Nat) : Option Link :=
  (w.conns[c]?).bind (·.link)

/-- Changes the link of a connection to another one. -/
def setLink (w : Network) (c : Nat) (l : Link) : Network :=
  w.modifyConn c fun x => { x with link := some l }

/-- The connection whose open link a dispatcher is bound to. -/
def boundConn? (w : Network) (d : Nat) : Option Nat :=
  ((w.dispatchers[d]?).bind (·.bound)).filter fun c => (w.conns[c]?).any Connection.isOpen

/-- Whether a run was told to stop: because its request was cancelled, or because its connection
ends. -/
def isCancelled (w : Network) (r : Run) : Bool :=
  r.cancelled || (w.conns[r.conn]?).any (·.shutdown)

/-! ## What these change -/

theorem wake_eq (w : Network) (t : Task) : w.wake t = { w with ready := (w.wake t).ready } := by
  rw [wake]
  split <;> rfl

theorem wakeReader_eq (w : Network) (c : Nat) :
    w.wakeReader c = { w with ready := (w.wakeReader c).ready } := by
  rw [wakeReader]
  split
  · exact wake_eq w _
  · rfl

theorem wakeIdleWriter_eq (w : Network) (c : Nat) :
    w.wakeIdleWriter c = { w with ready := (w.wakeIdleWriter c).ready } := by
  rw [wakeIdleWriter]
  split
  · exact wake_eq w _
  · rfl

theorem wakeBusyWriter_eq (w : Network) (c : Nat) :
    w.wakeBusyWriter c = { w with ready := (w.wakeBusyWriter c).ready } := by
  rw [wakeBusyWriter]
  split
  · exact wake_eq w _
  · rfl

@[simp] theorem getElem?_modifyConn_self (w : Network) (c : Nat) (f : Connection → Connection) :
    (w.modifyConn c f).conns[c]? = (w.conns[c]?).map f := by
  simp [modifyConn]

theorem modifyConn_modifyConn (w : Network) (c : Nat) (f g : Connection → Connection) :
    (w.modifyConn c f).modifyConn c g = w.modifyConn c (g ∘ f) := by
  simp [modifyConn, List.modify_modify_eq]

theorem getElem?_modifyConn_ne (w : Network) {c d : Nat} (f : Connection → Connection)
    (h : d ≠ c) : (w.modifyConn c f).conns[d]? = w.conns[d]? := by
  simp [modifyConn, Ne.symm h]

end Network

end Parley

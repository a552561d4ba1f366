import Parley.Config
import Parley.Frame.Feed
import Parley.Peer.Link

/-!
# Connections

- `Phase`: the life of a connection, from its creation to its end.
- `Stream`: what a connection reads from and writes to: a script of bytes and faults, or one end of
  a pair of pipes.
- `Connection`: a connection with its two loops, one that reads and one that writes.
-/

namespace Parley

/-- The life of a connection. The last phase is never left. -/
inductive Phase where
  | disconnected
  | connecting
  | connected
  /-- The end has begun: nothing more is accepted, and all calls have failed. -/
  | disconnecting
  | closed
  deriving DecidableEq, Repr

namespace Phase

/-- The place of a phase in the order of life. -/
def rank : Phase → Nat
  | .disconnected => 0
  | .connecting => 1
  | .connected => 2
  | .disconnecting => 3
  | .closed => 4

/-- Whether the end may still begin. -/
def isLive : Phase → Bool
  | .connecting | .connected => true
  | _ => false

/-- The name of a phase. -/
def name : Phase → String
  | .disconnected => "disconnected"
  | .connecting => "connecting"
  | .connected => "connected"
  | .disconnecting => "disconnecting"
  | .closed => "closed"

/-- The name of a phase in a description. -/
def describe : Phase → String
  | .disconnected => "Disconnected"
  | .connecting => "Connecting"
  | .connected => "Connected"
  | .disconnecting => "Disconnecting"
  | .closed => "Closed"

end Phase

/-! ## Streams -/

/-- What a script gives to read: the bytes that have arrived and were not read, and what follows
them. -/
structure Input where
  bytes : List UInt8 := []
  ended : Bool := false
  /-- The text of the fault that reading meets. -/
  fault : Option String := none
  deriving DecidableEq, Repr

/-- What a script does with what is written. -/
structure Output where
  /-- The bytes that are still taken at once; all if there is no limit. -/
  budget : Option Nat := none
  error : Option String := none
  flushError : Option String := none
  deriving DecidableEq, Repr

/-- What became of bytes to write: how many were taken, and whether that was a failure. -/
structure Taken where
  count : Nat
  failure : Option String := none
  deriving DecidableEq, Repr

/-- Writes as many of `n` bytes as are taken at once. -/
def Output.take (o : Output) (n : Nat) : Taken × Output :=
  match o.error with
  | some text => (⟨0, some text⟩, o)
  | none =>
    match o.budget with
    | none => (⟨n, none⟩, o)
    | some b => (⟨min b n, none⟩, { o with budget := some (b - n) })

/-- A pipe: what one connection writes another one reads. -/
structure Pipe where
  capacity : Nat
  /-- The bytes that are written and not read. -/
  held : List UInt8 := []
  closed : Bool := false
  /-- The connection that reads. -/
  reader : Nat
  /-- The connection that writes. -/
  writer : Nat
  deriving DecidableEq, Repr

/-- The fault of writing into a closed pipe. -/
def brokenPipe : String := "broken pipe"

/-- Writes as many of some bytes as fit into a pipe. -/
def Pipe.take (p : Pipe) (bs : List UInt8) : Taken × Pipe :=
  if p.closed then (⟨0, some brokenPipe⟩, p)
  else
    let n := min bs.length (p.capacity - p.held.length)
    (⟨n, none⟩, { p with held := p.held ++ bs.take n })

/-- What a connection reads from and writes to. -/
inductive Stream where
  | script (input : Input) (output : Output)
  /-- The numbers of two pipes. -/
  | pipes (incoming outgoing : Nat)
  deriving DecidableEq, Repr

/-! ## Connections -/

/-- The loop that reads. -/
inductive Reading where
  | notStarted
  /-- With what is known of the frame under way. -/
  | running (s : Frame.Intake)
  | stopped
  deriving DecidableEq, Repr

/-- The loop that writes. -/
inductive Writing where
  | notStarted
  /-- Between two messages. -/
  | idle
  /-- Inside a message: the bytes of its frame that are still to be written. -/
  | busy (rest : List UInt8)
  | stopped
  deriving DecidableEq, Repr

/-- A connection. -/
structure Connection where
  config : Config
  stream : Stream
  /-- Whether it has the stream in its own hands; when its loops start they take it. -/
  hasStream : Bool := true
  phase : Phase := .disconnected
  link : Option Link := none
  /-- The dispatcher that serves it. -/
  dispatcher : Option Nat := none
  /-- Whether the loop that reads, and every handler, was told to stop. -/
  shutdown : Bool := false
  /-- Whether the loop that writes was told to stop before its next message. -/
  aborted : Bool := false
  reading : Reading := .notStarted
  writing : Writing := .notStarted
  deriving DecidableEq, Repr

namespace Connection

/-- Whether messages are accepted. -/
def isOpen (c : Connection) : Bool :=
  c.link.any (·.isOpen)

/-- The connection when it has been bound to a dispatcher. -/
def start (c : Connection) (dispatcher : Nat) : Connection :=
  { c with
    phase := .connected
    hasStream := false
    link := some {}
    dispatcher := some dispatcher
    reading := .running .start
    writing := .idle }

/-- The connection when a dispatcher has refused it: it has its stream back, and may try again. -/
def rollBack (c : Connection) : Connection :=
  if c.phase = .connecting then { c with phase := .disconnected, hasStream := true }
  else { c with phase := .closed, hasStream := false }

/-- The connection when nobody will connect it any more: its stream is given back. -/
def giveBack (c : Connection) : Connection :=
  { c with phase := .closed, hasStream := false }

/-- Who waits for a reply. -/
def waiters (c : Connection) : List Nat :=
  c.link.elim [] Link.waiters

/-- The connection at the beginning of its end: it takes no more messages, nobody waits for a reply,
and both loops have been told to stop. -/
def cut (c : Connection) (flush : Bool) : Connection :=
  { c with
    phase := .disconnecting
    link := c.link.map fun l => l.close flush
    aborted := !flush
    shutdown := true }

/-- Whether both loops have stopped. -/
def isFinished (c : Connection) : Bool :=
  c.reading = .stopped && c.writing = .stopped

/-- A connection for a reader. -/
def describe (c : Connection) : String :=
  "Connection \x7b state: " ++ c.phase.describe ++ ", config: " ++ c.config.describe ++ ", .. \x7d"

end Connection

end Parley

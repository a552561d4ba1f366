import Parley.Network.Incoming
import Parley.Network.Teardown

/-!
# The two loops of a connection

- `Network.readLoop`: reads all that is there, and hands on the messages in it. For the limit of the
  connection the same holds as for an `Intake`: it is one that a buffer can have.
- `Network.writeLoop`: writes what is queued as far as the stream takes it.
-/

namespace Parley.Network

/-! ## Reading -/

/-- How a stream goes on behind the bytes that are there. -/
inductive Sequel where
  /-- More bytes may come. -/
  | open
  | ended
  | fault (text : String)
  deriving DecidableEq, Repr

/-- How a script goes on behind its bytes: a fault is met before the end. -/
def sequelOf (input : Input) : Sequel :=
  match input.fault with
  | some text => .fault text
  | none => if input.ended then .ended else .open

/-- Takes all the bytes that are there for a connection. -/
def takeInput (w : Network) (c : Nat) : List UInt8 × Sequel × Network :=
  match (w.conns[c]?).map Connection.stream with
  | none => ([], .open, w)
  | some (.script input output) =>
    (input.bytes, sequelOf input, w.modifyConn c fun x =>
      { x with stream := .script { input with bytes := [] } output })
  | some (.pipes incoming _) =>
    match w.pipes[incoming]? with
    | none => ([], .open, w)
    | some p =>
      -- Who writes waits for room, and an empty pipe gives none.
      let taken := { w with pipes := w.pipes.modify incoming fun p => { p with held := [] } }
      (p.held, if p.closed then .ended else .open,
        if p.held.isEmpty then w else taken.wakeBusyWriter p.writer)

/-- The peer broke the rules, or the stream failed: the connection ends, and nothing more is
written. -/
def failReading (w : Network) (c : Nat) (e : ReadError) : Network :=
  ((w.log (.protocolError e)).teardown c false).stopReading c

/-- The stream ended between two frames. -/
def endReading (w : Network) (c : Nat) : Network :=
  (w.teardown c ((w.conns[c]?).any (·.config.flushOnEnd))).stopReading c

/-- Hands on the messages in the bodies of frames, up to the first one that is no message. -/
def receiveAll (c : Nat) : Network → List (List UInt8) → Except (ReadError × Network) Network
  | w, [] => .ok w
  | w, body :: bodies =>
    match Message.ofBytes body with
    | .error e => .error (e, w)
    | .ok m => receiveAll c (w.receive c m) bodies

/-- What the end of the stream says, after all bytes. -/
def closeIntake (w : Network) (c : Nat) (limit : Nat) (s : Frame.Intake) : Network :=
  match s.finish limit with
  | .error e => w.failReading c e
  | .ok none => w.endReading c
  | .ok (some body) =>
    match receiveAll c w [body] with
    | .error (e, w) => w.failReading c e
    | .ok w => w.endReading c

/-- Reads all that is there. -/
def readOn (w : Network) (c : Nat) (limit : Nat) (s : Frame.Intake) : Network :=
  let (bytes, sequel, w) := w.takeInput c
  let (bodies, rest) := s.feed limit bytes
  match receiveAll c w bodies with
  | .error (e, w) => w.failReading c e
  | .ok w =>
    -- Every frame before the fault was handed on.
    match rest with
    | .error e => w.failReading c e
    | .ok s =>
      match sequel with
      | .open => w.modifyConn c fun x => { x with reading := .running s }
      | .ended => w.closeIntake c limit s
      | .fault text => w.failReading c (.stream text)

/-- The turn of the loop that reads. -/
def readLoop (w : Network) (c : Nat) : Network :=
  match w.conns[c]? with
  | none => w
  | some x =>
    match x.reading with
    | .running s => if x.shutdown then w.stopReading c else w.readOn c x.config.maxContentLength s
    | .notStarted | .stopped => w

/-! ## Writing -/

/-- Writes as many bytes as the stream takes at once: how many, and whether that failed. -/
def takeOutput (w : Network) (c : Nat) (bs : List UInt8) : Taken × Network :=
  match (w.conns[c]?).map Connection.stream with
  | none => (⟨0, none⟩, w)
  | some (.script input output) =>
    let (taken, output) := output.take bs.length
    (taken, w.modifyConn c fun x => { x with stream := .script input output })
  | some (.pipes _ outgoing) =>
    match w.pipes[outgoing]? with
    | none => (⟨0, none⟩, w)
    | some p =>
      let (taken, q) := p.take bs
      let w := { w with pipes := w.pipes.modify outgoing fun _ => q }
      (taken, if taken.count = 0 then w else w.wakeReader p.reader)

/-- Writes bytes of a message, and notes which of them were written. -/
def write (w : Network) (c : Nat) (bs : List UInt8) : Taken × Network :=
  let (taken, w) := w.takeOutput c bs
  (taken,
    if taken.count = 0 then w
    else
      let w := w.modifyConn c fun x => { x with writing := .busy (bs.drop taken.count) }
      w.emit (.wrote c (bs.take taken.count)))

/-- The fault that a stream meets when all that was written has to be passed on. -/
def flushFault (w : Network) (c : Nat) : Option String :=
  match (w.conns[c]?).map Connection.stream with
  | some (.script _ output) => output.flushError
  | _ => none

/-- Writing failed: the connection ends. -/
def failWriting (w : Network) (c : Nat) (text : String) : Network :=
  (((w.log (.writeFailed text)).teardown c false).emit (.broke c)).stopWriting c

/-- Goes on inside a message. -/
def writeOn (w : Network) (c : Nat) (rest : List UInt8) : Network :=
  let (taken, w) := w.write c rest
  match taken.failure with
  | some text => w.failWriting c text
  | none =>
    match rest.drop taken.count with
    | [] =>
      -- The frame is complete, and must not stay in a buffer.
      match w.flushFault c with
      | some text => w.failWriting c text
      | none => w.modifyConn c fun x => { x with writing := .idle }
    | _ => w

/-- Writes messages until there are none, the stream takes no more bytes, or the loop has to stop.
The number bounds the messages. -/
def writeLoop (c : Nat) : Nat → Network → Network
  | 0, w => w
  | n + 1, w =>
    match w.conns[c]? with
    | none => w
    | some x =>
      match x.writing with
      | .notStarted | .stopped => w
      | .busy rest =>
        if x.aborted then w.stopWriting c
        else
          let w := w.writeOn c rest
          match (w.conns[c]?).map Connection.writing with
          | some .idle => writeLoop c n w
          | _ => w
      | .idle =>
        if x.aborted then w.stopWriting c
        else
          match x.link.bind Link.pop with
          | none => w
          | some (.close, l) => (w.setLink c l).stopWriting c
          | some (.message m, l) =>
            let w := w.modifyConn c fun x => { x with link := some l, writing := .busy m.frame }
            let w := w.writeOn c m.frame
            match (w.conns[c]?).map Connection.writing with
            | some .idle => writeLoop c n w
            | _ => w

/-- The number of entries in the queue of a connection. -/
def queued (w : Network) (c : Nat) : Nat :=
  (w.link? c).elim 0 fun l => l.queue.length

end Parley.Network

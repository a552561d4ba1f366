import Parley.Network.Loops

/-!
# Running a network

- `Network.step`: gives the first task in the queue its turn.
- `Network.settle`: goes on until no task can.
- `Action`, `Network.act`: what a user may do.
- `Network.Reachable`: the networks that any use leads to.
-/

namespace Parley

/-! ## Tasks -/

namespace Network

/-- The turn of a task. -/
def perform (w : Network) : Task → Network
  | .reader c => w.readLoop c
  | .writer c => writeLoop c (w.queued c + 2) w
  | .handler r => w.runHandler r
  | .caller k => w.checkCall k

/-- Gives the first task in the queue its turn. -/
def step (w : Network) : Option Network :=
  match w.ready with
  | [] => none
  | t :: rest => some ({ w with ready := rest }.perform t)

/-- Gives tasks their turns, at most as many as said, until the queue is empty. -/
def settle : Nat → Network → Network
  | 0, w => w
  | n + 1, w =>
    match w.step with
    | none => w
    | some w => settle n w

end Network

/-! ## Actions -/

/-- Who is asked to send something. -/
inductive Sender where
  | conn (c : Nat)
  | dispatcher (d : Nat)
  deriving DecidableEq, Repr

/-- What a user may do. Params may turn out to have no JSON form. -/
inductive Action where
  /-- Makes a connection over a script. -/
  | openScript (config : Config)
  /-- Makes two connections over a pair of pipes with a capacity. -/
  | openPipes (capacity : Nat) (first second : Config)
  | openDispatcher
  | dropDispatcher (d : Nat)
  | dropConn (c : Nat)
  | connect (c d : Nat)
  | disconnect (c : Nat) (flush : Bool)
  /-- Bytes arrive, and maybe the end. -/
  | feed (c : Nat) (bytes : List UInt8) (ended : Bool)
  /-- Reading fails behind the bytes that have arrived. -/
  | fault (c : Nat) (text : String)
  /-- Changes what becomes of the bytes that are written. -/
  | setOutput (c : Nat) (output : Output)
  | notify (sender : Sender) (method : String) (params : Except Json.Cause Json)
  /-- Sends a request; a command has no shape for its result. -/
  | call (sender : Sender) (method : String) (params : Except Json.Cause Json)
    (shape : Option Json.Shape)
  | dropCall (k : Nat)
  | advance (secs : Nat)
  | openGate (gate : String)
  | handle (d : Nat) (method : String) (h : Handler)
  | register (d : Nat) (descriptor : Descriptor) (hooks : List Retraction)
  | keep (d : Nat) (descriptor : Descriptor) (hooks : List Retraction)
  | unregister (serial : Nat)
  /-- Lets tasks have their turns, at most as many as said. -/
  | settle (turns : Nat)

/-- What an action tells. -/
inductive Answer where
  | done
  | refused (e : CallError)
  /-- The number of what was made. -/
  | made (n : Nat)
  | flag (b : Bool)
  deriving DecidableEq, Repr

/-- The answer of an action that may be refused. -/
def Answer.ofOutcome : Except CallError Unit → Answer
  | .ok () => .done
  | .error e => .refused e

namespace Network

/-- Makes a connection over a script. -/
def openScript (w : Network) (config : Config) : Nat × Network :=
  (w.conns.length, { w with conns := w.conns ++ [{ config, stream := .script {} {} }] })

/-- Makes two connections, over two pipes: what one writes the other reads. -/
def openPipes (w : Network) (capacity : Nat) (first second : Config) : Nat × Network :=
  let a := w.conns.length
  let p := w.pipes.length
  (a, { w with
    conns := w.conns ++
      [{ config := first, stream := .pipes p (p + 1) },
        { config := second, stream := .pipes (p + 1) p }]
    pipes := w.pipes ++
      [{ capacity, reader := a, writer := a + 1 }, { capacity, reader := a + 1, writer := a }] })

/-- Changes the script of a connection. -/
def modifyScript (w : Network) (c : Nat) (f : Input × Output → Input × Output) : Network :=
  w.modifyConn c fun x =>
    match x.stream with
    | .script input output =>
      let (input, output) := f (input, output)
      { x with stream := .script input output }
    | .pipes _ _ => x

/-- Lets bytes arrive, and maybe the end. -/
def feed (w : Network) (c : Nat) (bytes : List UInt8) (ended : Bool) : Network :=
  (w.modifyScript c fun (input, output) =>
    ({ input with bytes := input.bytes ++ bytes, ended := input.ended || ended }, output)
  ).wakeReader c

/-- Lets reading fail behind the bytes that have arrived. -/
def fault (w : Network) (c : Nat) (text : String) : Network :=
  (w.modifyScript c fun (input, output) => ({ input with fault := some text }, output)).wakeReader c

/-- Changes what becomes of the bytes that are written. -/
def setOutput (w : Network) (c : Nat) (output : Output) : Network :=
  (w.modifyScript c fun (input, _) => (input, output)).wakeBusyWriter c

/-- The dispatcher through which a sender sends. -/
def dispatcherOf (w : Network) : Sender → Except CallError Nat
  | .dispatcher d => .ok d
  | .conn c =>
    match (w.conns[c]?).bind (·.dispatcher) with
    | none => .error .notConnected
    | some d => .ok d

/-- Sends a notification. -/
def notify (w : Network) (sender : Sender) (method : String) (params : Except Json.Cause Json) :
    Except CallError Network :=
  match w.dispatcherOf sender, params with
  | .error e, _ => .error e
  | .ok _, .error cause => .error (.conversion cause)
  | .ok d, .ok params => w.sendVia d (.notification method params)

/-- Sends a request, and looks once whether the call is over. -/
def call (w : Network) (sender : Sender) (method : String) (params : Except Json.Cause Json)
    (shape : Option Json.Shape) : Except CallError (Nat × Network) :=
  match w.dispatcherOf sender, params with
  | .error e, _ => .error e
  | .ok _, .error cause => .error (.conversion cause)
  | .ok d, .ok params =>
    (w.startCall d method params shape none).map fun (k, w) => (k, w.checkCall k)

/-- The answer of an action that may be refused, and then changes nothing. -/
def attempt (w : Network) : Except CallError Network → Answer × Network
  | .ok w => (.done, w)
  | .error e => (.refused e, w)

/-- The answer of an action that may make something. -/
def attemptMade (w : Network) : Except CallError (Nat × Network) → Answer × Network
  | .ok (n, w) => (.made n, w)
  | .error e => (.refused e, w)

/-- Does what a user asks for. -/
def act (w : Network) : Action → Answer × Network
  | .openScript config => let (n, w) := w.openScript config; (.made n, w)
  | .openPipes capacity first second =>
    let (n, w) := w.openPipes capacity first second; (.made n, w)
  | .openDispatcher => (.made w.dispatchers.length, { w with dispatchers := w.dispatchers ++ [{}] })
  | .dropDispatcher d => (.done, w.dropDispatcher d)
  | .dropConn c => (.done, w.dropConn c)
  | .connect c d => let (outcome, w) := w.connect c d; (.ofOutcome outcome, w)
  | .disconnect c flush => (.done, w.disconnect c flush)
  | .feed c bytes ended => (.done, w.feed c bytes ended)
  | .fault c text => (.done, w.fault c text)
  | .setOutput c output => (.done, w.setOutput c output)
  | .notify sender method params => w.attempt (w.notify sender method params)
  | .call sender method params shape => w.attemptMade (w.call sender method params shape)
  | .dropCall k => (.done, w.dropCall k)
  | .advance secs => (.done, w.advance secs)
  | .openGate gate => (.done, w.openGate gate)
  | .handle d method h => w.attempt (w.handle d method h)
  | .register d descriptor hooks => w.attemptMade (w.register d descriptor hooks)
  | .keep d descriptor hooks => let (n, w) := w.keep d descriptor hooks; (.made n, w)
  | .unregister serial => let (b, w) := w.unregister serial; (.flag b, w)
  | .settle turns => (.done, w.settle turns)

/-- What a list of actions leads to. -/
def run (w : Network) (actions : List Action) : Network :=
  actions.foldl (fun w a => (w.act a).2) w

/-- The networks that any use of a fresh one leads to. -/
def Reachable (w : Network) : Prop :=
  ∃ actions, w = run {} actions

end Network

end Parley

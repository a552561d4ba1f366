import Parley.Session.Command
import Parley.Session.Names

/-!
# Sessions

A session is a network together with the names that its user gave, and with what the user was told.

- `Session.perform`: does what a command asks for.
- `Session.report`: tells what has happened since the last report.
- `Session.run`: both, with all tasks having their turns in between.
-/

namespace Parley

/-- A session. -/
structure Session where
  network : Network := {}
  /-- The connections that can still be named. -/
  conns : Names := []
  dispatchers : Names := []
  registrations : Names := []
  calls : Names := []
  /-- The scripts, also of connections that were dropped. -/
  scripts : Names := []
  /-- The phases that were told. -/
  phases : List (String × Phase) := []
  /-- How much of the journal was told. -/
  told : Nat := 0
  /-- The calls that could not even start, with the reasons, since the last report. -/
  unstarted : List (String × CallError) := []

/-- What a user is told after a command. -/
structure Report where
  result : Result
  notices : List Notice
  calls : List (String × Except CallError Json)
  /-- What was written to each script. -/
  wire : List (String × List UInt8)
  /-- The connections whose phase is another one than the one that was told. -/
  phases : List (String × Phase)
  marks : List (String × List StreamMark)
  logs : List Log

namespace Session

/-! ## Commands -/

/-- The number of a connection. A name that stands for nothing has a number that nothing has. -/
def conn (s : Session) (c : String) : Nat :=
  (s.conns.get? c).getD s.network.conns.length

/-- The number of a dispatcher. -/
def dispatcher (s : Session) (d : String) : Nat :=
  (s.dispatchers.get? d).getD s.network.dispatchers.length

/-- Who is asked to send something. -/
def sender (s : Session) : Party → Sender
  | .conn c => .conn (s.conn c)
  | .dispatcher d => .dispatcher (s.dispatcher d)

/-- The hooks of a registration. -/
def hooksOf (d : Nat) (method : String) (hooks : List String) (counts : Bool) : List Retraction :=
  hooks.map fun name => .hook name (if counts then some (d, method) else none)

/-- What an answer is to a user. -/
def resultOf : Answer → Result
  | .done | .made _ => .done
  | .refused e => .refused e
  | .flag b => .flag b

/-- Does an action whose answer is told. -/
def act (s : Session) (a : Action) : Result × Session :=
  let (answer, network) := s.network.act a
  (resultOf answer, { s with network })

/-- Does an action, and names what it made. -/
def actNamed (s : Session) (a : Action) (name : Session → Nat → Session) : Result × Session :=
  let (answer, network) := s.network.act a
  let s := { s with network }
  match answer with
  | .made n => (.done, name s n)
  | answer => (resultOf answer, s)

/-- Names a connection over a script. -/
def nameScript (c : String) (s : Session) (n : Nat) : Session :=
  { s with conns := s.conns.insert c n, scripts := s.scripts.insert c n }

/-- Names two connections over pipes. -/
def namePipes (a b : String) (s : Session) (n : Nat) : Session :=
  { s with conns := (s.conns.insert a n).insert b (n + 1) }

/-- Starts a call. One that cannot even start is over. -/
def call (s : Session) (label : String) (a : Action) : Result × Session :=
  let (answer, network) := s.network.act a
  let s := { s with network }
  match answer with
  | .made k =>
    let isOver := match (network.calls[k]?).map Call.state with
      | some (.ended _) => true
      | _ => false
    (.call isOver, { s with calls := s.calls.insert label k })
  | .refused e => (.call true, { s with unstarted := s.unstarted ++ [(label, e)] })
  | answer => (resultOf answer, s)

/-- Takes a descriptor back, twice, that was never registered. -/
def retractUnregistered (s : Session) (d : Nat) (descriptor : Descriptor)
    (hooks : List Retraction) : Result × Session :=
  let (n, w) := s.network.keep d descriptor hooks
  let (first, w) := w.unregister n
  let (second, w) := w.unregister n
  (.twice first second, { s with network := w })

/-- Answers a question about a connection. -/
def askConn (s : Session) (c : String) (f : Connection → Result) : Result × Session :=
  (((s.network.conns[s.conn c]?).map f).getD .done, s)

/-- Answers a question about a dispatcher. -/
def askDispatcher (s : Session) (d : String) (f : Dispatcher → Result) : Result × Session :=
  (((s.network.dispatchers[s.dispatcher d]?).map f).getD .done, s)

/-- The descriptors for a method that the document of some params leads to. -/
def find (d : Dispatcher) (method : String) (params : Json) : Result :=
  let entries := d.entriesFor method
  .found ((routed Entry.selector d.languages params entries).map (·.descriptor.key))
    ((chosen Entry.selector d.languages params entries).map (·.descriptor.key))

/-- Does what a command asks for. -/
def perform (s : Session) : Command → Result × Session
  | .openScript c config => s.actNamed (.openScript config) (nameScript c)
  | .openPipes a b capacity => s.actNamed (.openPipes capacity {} {}) (namePipes a b)
  | .openDispatcher d =>
    s.actNamed .openDispatcher fun s n => { s with dispatchers := s.dispatchers.insert d n }
  | .dropDispatcher d =>
    let (r, t) := s.act (.dropDispatcher (s.dispatcher d))
    (r, { t with dispatchers := t.dispatchers.erase d })
  | .dropConn c =>
    let (r, t) := s.act (.dropConn (s.conn c))
    (r, { t with conns := t.conns.erase c, phases := t.phases.filter fun e => e.1 != c })
  | .connect c d => s.act (.connect (s.conn c) (s.dispatcher d))
  | .disconnect c flush =>
    (s.act (.disconnect (s.conn c) flush)).2.askConn c fun x => .phase x.phase
  | .feed c bytes ended => s.act (.feed (s.conn c) bytes ended)
  | .fault c text => s.act (.fault (s.conn c) text)
  | .setOutput c output => s.act (.setOutput (s.conn c) output)
  | .notify sender method params => s.act (.notify (s.sender sender) method params)
  | .call label sender method params shape =>
    s.call label (.call (s.sender sender) method params shape)
  | .dropCall label => s.act (.dropCall ((s.calls.get? label).getD s.network.calls.length))
  | .advance secs => s.act (.advance secs)
  | .openGate gate => s.act (.openGate gate)
  | .handle d method h => s.act (.handle (s.dispatcher d) method h)
  | .register name d descriptor hooks counts =>
    match descriptor with
    | .error e => (.refused (.badGlob e), s)
    | .ok x =>
      let d := s.dispatcher d
      s.actNamed (.register d x (hooksOf d x.method hooks counts)) fun s n =>
        { s with registrations := s.registrations.insert name n }
  | .retractUnregistered d descriptor hooks counts =>
    match descriptor with
    | .error e => (.refused (.badGlob e), s)
    | .ok x =>
      let d := s.dispatcher d
      s.retractUnregistered d x (hooksOf d x.method hooks counts)
  | .unregister name =>
    s.act (.unregister ((s.registrations.get? name).getD s.network.registrations.length))
  | .descriptors d method =>
    s.askDispatcher d fun x => .descriptors ((x.entriesFor method).map Entry.descriptor)
  | .describe name =>
    (((s.registrations.get? name).bind fun n => s.network.registrations[n]?).elim .done
      fun x => .descriptor x.descriptor, s)
  | .find d method params => s.askDispatcher d fun x => find x method params
  | .identify d params => s.askDispatcher d fun x => .document (x.languages.identify params)
  | .isConnected d => (.flag (s.network.boundConn? (s.dispatcher d)).isSome, s)
  | .isBoundConnected c =>
    s.askConn c fun x => x.dispatcher.elim (.refused .notConnected) fun d =>
      .connected (s.network.boundConn? d).isSome
  | .isClosed c => s.askConn c fun x => .flag (x.phase = .closed)
  | .phase c => s.askConn c fun x => .watched x.phase
  | .config c => s.askConn c fun x => .text x.config.text
  | .showConn c => s.askConn c fun x => .text x.describe
  | .showDispatcher d =>
    s.askDispatcher d fun x => .text (x.describe (s.network.boundConn? (s.dispatcher d)).isSome)

/-! ## Reports -/

/-- What has happened since the last report, the earliest first. -/
def news (s : Session) : List Event :=
  (s.network.journal.take (s.network.journal.length - s.told)).reverse

/-- What each script has to tell, of those that have something to tell. -/
def perScript {α : Type} (s : Session) (f : Nat → List α) : List (String × List α) :=
  (s.scripts.map fun (name, c) => (name, f c)).filter fun e => !e.2.isEmpty

/-- The phases of the connections that can be named. -/
def currentPhases (s : Session) : List (String × Phase) :=
  s.conns.filterMap fun (name, c) => (s.network.conns[c]?).map fun x => (name, x.phase)

/-- The calls that are over according to some events. -/
def endedCalls (s : Session) (news : List Event) : List (String × Except CallError Json) :=
  news.flatMap fun
    | .ended k outcome => (s.calls.namesOf k).map fun label => (label, outcome)
    | _ => []

/-- Tells what has happened since the last report. -/
def report (s : Session) (result : Result) : Report × Session :=
  let news := s.news
  let phases := s.currentPhases
  ({ result
     notices := news.filterMap fun | .reported n => some n | _ => none
     calls := s.unstarted.map (fun (label, e) => (label, .error e)) ++ s.endedCalls news
     wire := s.perScript fun c => news.flatMap fun
      | .wrote d bytes => if d = c then bytes else []
      | _ => []
     phases := phases.filter fun (name, p) => s.phases.lookup name != some p
     marks := s.perScript fun c => news.filterMap fun
      | .stream d mark => if d = c then some mark else none
      | _ => none
     logs := news.filterMap fun | .logged l => some l | _ => none },
    { s with phases, told := s.network.journal.length, unstarted := [] })

/-- The turns that tasks may have after one command. -/
def maxTurns : Nat := 1000000000

/-- Does what a command asks for, lets all tasks have their turns if `settles`, and reports. -/
def run (s : Session) (c : Command) (settles : Bool) : Report × Session :=
  let (result, s) := s.perform c
  (if settles then (s.act (.settle maxTurns)).2 else s).report result

end Session

end Parley

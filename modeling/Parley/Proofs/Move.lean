import Parley.Network.Run
import Parley.Proofs.Answer
import Parley.Proofs.ConnMove
import Parley.Proofs.Entries

/-!
# What may happen in a network

Whatever a user does and whichever task has its turn, a network changes by moves, each of which
leaves everything in order: a request is queued and its call waits, a reply is taken in and its call
is answered, a run is over and its reply is queued. What every move keeps, every run keeps.

- `Network.Move`: every move, with what has to hold before it.
- `Network.Moves`: a series of moves.
- `Network.Path`: a series of moves, of tasks that are taken out of the queue, and of calls that are
  given up.
-/

namespace Parley

/-! ## Calls and dispatchers -/

namespace Call

/-- Whether a call has lasted too long at a time. -/
def isOverdue (x : Call) (t : Nat) : Bool := x.deadline.any (· ≤ t)

/-- Whether a call is over, or nobody waits for it any more. -/
def isOver (x : Call) : Bool :=
  match x.state with
  | .ended _ | .dropped => true
  | .waiting | .answered _ | .closed => false

/-- What a call was told first is what it was told. -/
theorem resolve_resolve (s : CallState) (x : Call) : (x.resolve s).resolve s = x.resolve s := by
  by_cases h : x.isWaiting
  · by_cases h' : ({ x with state := s } : Call).isWaiting <;> simp [resolve, h, h']
  · simp [resolve, h]

/-- A call that is resolved has the waiter that it had. -/
theorem waiter_resolve (s : CallState) (x : Call) : (x.resolve s).waiter = x.waiter := by
  rw [resolve]
  split <;> rfl

/-- A call that waits is in the state of waiting. -/
theorem isWaiting_iff {x : Call} : x.isWaiting = true ↔ x.state = .waiting := by
  rw [isWaiting]
  cases x.state <;> simp

end Call

/-- A run as it was when it began. -/
def Run.origin (y : Run) : Run := { y with cancelled := false, stage := .fresh }

namespace Dispatcher

/-- Whether the plain handlers for requests serve requests, and those for notifications do not. -/
structure Tabled (d : Dispatcher) : Prop where
  requests : ∀ p ∈ d.requests, p.2.kind.isRequest = true
  notifications : ∀ p ∈ d.notifications, p.2.kind.isRequest = false

/-- What stays when a plain handler is registered, or descriptors are taken out. -/
structure Keeps (x y : Dispatcher) : Prop where
  bound : y.bound = x.bound
  inflight : y.inflight = x.inflight
  languages : y.languages = x.languages
  entries : y.entries.Sublist x.entries
  tabled : x.Tabled → y.Tabled

/-- What a dispatcher remembers of a message: whether it opens or closes a document. -/
def heed (x : Dispatcher) : Message → Dispatcher
  | .notification method params =>
    if method = cancelMethod then x else (x.observe method params).observeClosed method params
  | _ => x

/-- Heeding a message is remembering languages, and nothing else. -/
theorem heed_eq (x : Dispatcher) (m : Message) :
    x.heed m = { x with languages := (x.heed m).languages } := by
  cases m with
  | notification method params =>
    rw [heed]
    split <;> rfl
  | _ => rfl

end Dispatcher

/-- Whether a connection was just made. -/
def Connection.IsFresh (x : Connection) : Prop :=
  ∃ config stream, x = { config := config, stream := stream }

/-- Whether an event tells of nothing but logs, reports and streams. -/
def Event.isRemark : Event → Bool
  | .logged _ | .reported _ | .stream _ _ => true
  | _ => false

namespace Network

/-! ## What moves change -/

/-- A connection is asked to send a message. -/
def enqueue (w : Network) (c : Nat) (m : Message) : Network :=
  { w with
    conns := w.conns.modify c fun x => x.offer m
    journal := ((w.conns[c]?).elim [] fun x => x.offered c m) ++ w.journal }

/-- A request is given up over a connection. -/
def withdraw (w : Network) (c : Nat) (id : Id) : Network :=
  { w with
    conns := w.conns.modify c fun x => x.forget id
    journal := ((w.conns[c]?).elim [] fun x => x.forgot c id) ++ w.journal }

/-- When a call over a connection has lasted too long, if it begins now. -/
def deadline (w : Network) (c : Nat) : Option Nat :=
  ((w.conns[c]?).bind (·.config.requestTimeout)).map (deadlineAfter w.clock)

/-- A call begins, and its request is queued; the link is the one after that. -/
def begun (w : Network) (x : Call) (l : Link) (params : Json) : Network :=
  { w.modifyConn x.conn fun y => { y with link := some l } with
    calls := w.calls ++ [x]
    journal := .accepted x.conn (.request x.id x.method params) :: .started w.calls.length ::
      w.journal }

/-- A call is over because it lasted too long. -/
def expired (w : Network) (k : Nat) (x : Call) : Network :=
  (w.withdraw x.conn x.id).endCall k (.error (.timedOut x.method))

/-- A call is given up. -/
def givenUp (w : Network) (k : Nat) (x : Call) : Network :=
  ((w.withdraw x.conn x.id).modifyCall k fun x => { x with state := .dropped }).emit (.dropped k)

/-- Whether nobody but one call waits for a reply under an identifier. -/
def Owns (w : Network) (k c : Nat) (id : Id) : Prop :=
  ∀ l n, w.link? c = some l → l.pending.lookup id = some n → n = k

/-- Whether the identifier of a call is given a second time over its connection: it is the next one
there, or another call has it. -/
def Repeats (w : Network) (c k : Nat) (id : Id) : Prop :=
  (∃ l, w.link? c = some l ∧ l.counter.next.1 = id) ∨
    ∃ n x, n ≠ k ∧ w.calls[n]? = some x ∧ x.conn = c ∧ x.id = id

/-- The run that a dispatcher knows under the identifier of a request. -/
def held (w : Network) (d : Nat) (id : Id) : Option Nat :=
  (w.dispatchers[d]?).bind fun x => x.inflight.lookup id

/-- The run that a cancellation names which comes in for a dispatcher. -/
def named (w : Network) (d : Nat) (params : Json) : Option Nat :=
  (Id.ofJson? (params.index "id")).bind (w.held d)

/-- The run that a message cancels which comes in for a dispatcher. -/
def cancels (w : Network) (d : Nat) : Message → Option Nat
  | .notification method params => if method = cancelMethod then w.named d params else none
  | _ => none

/-- The runs after one of them was cancelled, or none. -/
def runsAfter (w : Network) (o : Option Nat) : List Run :=
  o.elim w.runs fun r => w.runs.modify r fun y => { y with cancelled := true }

/-- A message that is no request comes in for a dispatcher: what it cancels is cancelled, and what
it tells about open documents is remembered. -/
def heed (w : Network) (d : Nat) (m : Message) : Network :=
  { w with
    runs := w.runsAfter (w.cancels d m)
    dispatchers := w.dispatchers.modify d fun x => x.heed m }

/-- A message that no dispatcher remembers anything of is heeded in the runs alone. -/
theorem heed_of_eq (w : Network) (d : Nat) {m : Message} (h : ∀ x : Dispatcher, x.heed m = x) :
    w.heed d m = { w with runs := w.runsAfter (w.cancels d m) } := by
  rw [heed, modify_eq_of_eq fun x _ => h x]

/-- A reply is heeded by nobody. -/
theorem heed_reply (w : Network) (d : Nat) (r : Reply) : w.heed d (.reply r) = w :=
  w.heed_of_eq d fun _ => rfl

/-- A cancellation is heeded by the run that it names. -/
theorem heed_cancel (w : Network) (d : Nat) (params : Json) :
    w.heed d (.notification cancelMethod params) =
      { w with runs := w.runsAfter (w.named d params) } := by
  rw [w.heed_of_eq d fun x => by rw [Dispatcher.heed, if_pos rfl], cancels, if_pos rfl]

/-- Every other notification is heeded by the memory of the dispatcher. -/
theorem heed_notification (w : Network) (d : Nat) {method : String} (params : Json)
    (h : method ≠ cancelMethod) : w.heed d (.notification method params) =
      w.modifyDispatcher d fun x => (x.observe method params).observeClosed method params := by
  simp only [heed, cancels, Dispatcher.heed, if_neg h]
  rfl

/-- Changes how far calls are that wait. -/
def resolved (w : Network) (ks : List Nat) (s : CallState) : Network :=
  { w with calls := ks.foldl (fun cs k => cs.modify k (·.resolve s)) w.calls }

/-- The end of a connection begins, and all calls over it fail. -/
def severed (w : Network) (c : Nat) (x : Connection) (flush : Bool) : Network :=
  ((w.modifyConn c fun x => x.cut flush).emit (.cut c flush)).resolved x.waiters .closed

/-- A call after some calls were resolved. -/
theorem getElem?_resolved (w : Network) (ks : List Nat) (s : CallState) (k : Nat) :
    (w.resolved ks s).calls[k]? =
      (w.calls[k]?).map fun x => if k ∈ ks then x.resolve s else x := by
  induction ks generalizing w with
  | nil => simp [resolved]
  | cons n ks ih =>
    refine (ih (w.resolved [n] s)).trans ?_
    simp only [resolved, List.foldl_cons, List.foldl_nil, List.getElem?_modify]
    cases w.calls[k]? with
    | none => rfl
    | some x =>
      by_cases hn : n = k
      · subst hn
        by_cases hk : n ∈ ks <;> simp [hk, Call.resolve_resolve]
      · by_cases hk : k ∈ ks
        · simp [hn, hk]
        · simp [hn, hk, Ne.symm hn]

/-- Resolving calls makes none and loses none. -/
theorem length_resolved (w : Network) (ks : List Nat) (s : CallState) :
    (w.resolved ks s).calls.length = w.calls.length := by
  induction ks generalizing w with
  | nil => rfl
  | cons k ks ih => exact (ih (w.resolved [k] s)).trans (List.length_modify ..)

/-- A call after the end of a connection has begun. -/
theorem getElem?_severed (w : Network) (c : Nat) (x : Connection) (flush : Bool) (k : Nat) :
    (w.severed c x flush).calls[k]? =
      (w.calls[k]?).map fun y => if k ∈ x.waiters then y.resolve .closed else y :=
  getElem?_resolved ((w.modifyConn c fun x => x.cut flush).emit (.cut c flush)) x.waiters .closed k

/-- A run is over. -/
def concluded (w : Network) (r : Nat) (y : Run) (outcome : Except Failure Json) : Network :=
  let w := w.modifyRun r fun y => { y with stage := .finished outcome }
  let w := w.emit (.finished r y.conn y.id outcome)
  y.id.elim w fun id =>
    (w.modifyDispatcher y.dispatcher fun d => d.leave id).enqueue y.conn
      (.reply (.ofOutcome id outcome))

/-- The end of a run leaves the calls, the time and the queue alone. -/
theorem concluded_rest (w : Network) (r : Nat) (y : Run) (outcome : Except Failure Json) :
    (w.concluded r y outcome).calls = w.calls ∧ (w.concluded r y outcome).clock = w.clock ∧
      (w.concluded r y outcome).ready = w.ready ∧
      (w.concluded r y outcome).runs =
        w.runs.modify r fun y => { y with stage := .finished outcome } := by
  rw [concluded]
  cases y.id <;> exact ⟨rfl, rfl, rfl, rfl⟩

/-! ## Moves -/

/-- What may happen in a network. -/
inductive Move (w : Network) : Network → Prop where
  /-- Tasks are put at the end of the queue. -/
  | rouse {q : List Task} (h : w.ready <+: q) : Move w { w with ready := q }
  | remark (e : Event) (h : e.isRemark = true) : Move w (w.emit e)
  | surroundings (ps : List Pipe) (rs : List Registration) (gs : List String)
      (q : List (String × Nat)) (hr : w.registrations.length ≤ rs.length) :
      Move w { w with pipes := ps, registrations := rs, openGates := gs, gateQueue := q }
  | openConns {xs : List Connection} (h : ∀ x ∈ xs, x.IsFresh) :
      Move w { w with conns := w.conns ++ xs }
  | openDispatcher : Move w { w with dispatchers := w.dispatchers ++ [{}] }
  /-- A plain handler is registered at a dispatcher, or descriptors are taken out. -/
  | arrange {d : Nat} {x y : Dispatcher} (hx : w.dispatchers[d]? = some x) (hk : x.Keeps y) :
      Move w { w with dispatchers := w.dispatchers.set d y }
  /-- A descriptor is registered, under a number that no other one has. -/
  | register {d : Nat} {x : Dispatcher} (descriptor : Descriptor) (r : Registration)
      (hx : w.dispatchers[d]? = some x) :
      Move w { w with
        dispatchers := w.dispatchers.set d { x with
          entries := x.entries ++ [⟨w.registrations.length, descriptor⟩] }
        registrations := w.registrations ++ [r] }
  /-- Time passes, and who has waited too long is woken. -/
  | advance {t : Nat} {q : List Task} (ht : w.clock ≤ t) (hq : w.ready <+: q)
      (hw : ∀ (k : Nat) (x : Call), w.calls[k]? = some x → x.isWaiting = true →
        x.isOverdue t = true → x.waiter ∈ q) :
      Move w { w with clock := t, ready := q }
  /-- The loops of a connection do their work. -/
  | turn {c : Nat} {x y : Connection} {es : List Event} (hx : w.conns[c]? = some x)
      (h : x.Turn c es y) :
      Move w { w with conns := w.conns.set c y, journal := es ++ w.journal }
  | connect {c : Nat} {x : Connection} (d : Nat) (hx : w.conns[c]? = some x)
      (hp : x.phase = .disconnected) (hd : w.boundConn? d = none)
      (hy : (w.dispatchers[d]?).isSome = true) :
      Move w ((w.modifyConn c fun x => x.start d).modifyDispatcher d
        fun y => { y with bound := some c })
  | notify (c : Nat) (method : String) (params : Json) :
      Move w (w.enqueue c (.notification method params))
  /-- A call begins that is awaited from outside. -/
  | call {l l' : Link} {x : Call} {params : Json} (hl : w.link? x.conn = some l)
      (hs : l.start w.calls.length x.method params = some (x.id, l'))
      (hn : l.pending.lookup x.id = none) (hx : x.state = .waiting)
      (hw : x.waiter = .caller w.calls.length)
      (ht : x.deadline = w.deadline x.conn) (hd : x.isOverdue w.clock = false) :
      Move w (w.begun x l' params)
  /-- A run begins a call of its own, and waits for it. -/
  | forward {l l' : Link} {x : Call} {params : Json} {r : Nat} {y : Run}
      (hl : w.link? x.conn = some l)
      (hs : l.start w.calls.length x.method params = some (x.id, l'))
      (hn : l.pending.lookup x.id = none) (hx : x.state = .waiting) (hw : x.waiter = .handler r)
      (ht : x.deadline = w.deadline x.conn) (hd : x.isOverdue w.clock = false)
      (hy : w.runs[r]? = some y) (hf : y.stage = .fresh)
      (hm : y.MayWait (.calling w.calls.length)) :
      Move w ((w.begun x l' params).modifyRun r fun y =>
        { y with stage := .calling w.calls.length })
  /-- A call begins that has no time at all. -/
  | callLate {l l' : Link} {x : Call} {params : Json} (hl : w.link? x.conn = some l)
      (hs : l.start w.calls.length x.method params = some (x.id, l'))
      (hn : l.pending.lookup x.id = none) (hx : x.state = .waiting)
      (ht : x.deadline = w.deadline x.conn) (hd : x.isOverdue w.clock = true) :
      Move w ((w.begun x l' params).expired w.calls.length x)
  /-- Who waits for a call sees that it was answered. -/
  | learn {k : Nat} {x : Call} {r : Reply} (hk : w.calls[k]? = some x)
      (hx : x.state = .answered r) : Move w (w.endCall k (x.outcomeOf r))
  /-- Who waits for a call sees that the connection went away. -/
  | lose {k : Nat} {x : Call} (hk : w.calls[k]? = some x) (hx : x.state = .closed) :
      Move w (w.endCall k (.error .connectionClosed))
  | expire {k : Nat} {x : Call} (hk : w.calls[k]? = some x) (hx : x.state = .waiting)
      (hd : x.isOverdue w.clock = true) (ho : w.Owns k x.conn x.id) : Move w (w.expired k x)
  /-- A reply comes in that a call waits for. -/
  | answer {c k : Nat} {x : Connection} {r : Reply} {l l' : Link} {q : List Task}
      (hx : w.conns[c]? = some x) (hr : x.IsReading) (hl : x.link = some l)
      (ha : l.answer r.id = some (k, l')) (hq : w.ready <+: q)
      (hw : ∀ y : Call, w.calls[k]? = some y → y.isWaiting = true → y.waiter ∈ q) :
      Move w { w with
        conns := w.conns.set c { x with link := some l' }
        calls := w.calls.modify k (·.resolve (.answered r))
        journal := .received c (.reply r) :: w.journal
        ready := q }
  /-- A call loses its identifier to another one. -/
  | strand {c k : Nat} {x : Connection} {id : Id} {l l' : Link} {q : List Task}
      (hx : w.conns[c]? = some x) (hl : x.link = some l) (ha : l.answer id = some (k, l'))
      (hr : w.Repeats c k id) (hq : w.ready <+: q)
      (hw : ∀ y : Call, w.calls[k]? = some y → y.isWaiting = true → y.waiter ∈ q) :
      Move w { w with
        conns := w.conns.set c { x with link := some l' }
        calls := w.calls.modify k (·.resolve .closed)
        journal := .stranded k :: w.journal
        ready := q }
  /-- A message comes in that is no request and that no call waits for. -/
  | receive {c d : Nat} {x : Connection} {m : Message} (hx : w.conns[c]? = some x)
      (hr : x.IsReading) (hd : x.dispatcher = some d)
      (hm : ∀ id method params, m ≠ .request id method params)
      (ha : ∀ r l, m = .reply r → x.link = some l → l.pending.lookup r.id = none) :
      Move w ((w.heed d m).emit (.received c m))
  /-- A run begins that serves a notification. -/
  | spawn {c : Nat} {x : Connection} {y : Run} (hx : w.conns[c]? = some x) (hr : x.IsReading)
      (hk : (∀ d ∈ w.dispatchers, d.Tabled) → y.handler.kind.isRequest = false)
      (hc : y.conn = c) (hi : y.id = none) (hy : y.stage = .fresh) :
      Move w ({ w with runs := w.runs ++ [y] }.emit (.spawned w.runs.length c y.message))
  /-- A request comes in, and a run begins that serves it. -/
  | serve {c : Nat} {x : Connection} {y : Run} {d : Dispatcher} {id : Id}
      (hx : w.conns[c]? = some x) (hr : x.IsReading) (hd : x.dispatcher = some y.dispatcher)
      (hd' : w.dispatchers[y.dispatcher]? = some d)
      (hh : d.handlerFor y.method y.params = some y.handler) (hc : y.conn = c)
      (hi : y.id = some id) (hy : y.stage = .fresh) (hn : y.cancelled = false) :
      Move w { w with
        runs := w.runs ++ [y]
        dispatchers := w.dispatchers.modify y.dispatcher fun d => d.enter id w.runs.length
        journal := .spawned w.runs.length c y.message :: .received c y.message :: w.journal }
  /-- A request comes in that no handler serves. -/
  | refuse {c d : Nat} {x : Connection} {id : Id} {method : String} {params : Json}
      (hx : w.conns[c]? = some x) (hr : x.IsReading) (hd : x.dispatcher = some d)
      (hh : ∀ y : Dispatcher, w.dispatchers[d]? = some y → y.handlerFor method params = none) :
      Move w (((w.emit (.received c (.request id method params))).emit
        (.unserved c id method params)).enqueue c (.reply (.err id (noSuchMethod method))))
  /-- A run waits, for its cancellation or at a gate. -/
  | wait {r : Nat} {y : Run} {s : Stage} (hy : w.runs[r]? = some y) (hf : y.stage = .fresh)
      (hm : y.MayWait s) (hs : ∀ k, s ≠ .calling k) :
      Move w (w.modifyRun r fun y => { y with stage := s })
  | finish {r : Nat} {y : Run} {outcome : Except Failure Json} (hy : w.runs[r]? = some y)
      (hf : ∀ o, y.stage ≠ .finished o) (he : y.MayEnd outcome)
      (hk : ∀ (k : Nat) (x : Call), y.stage = .calling k → w.calls[k]? = some x →
        x.isOver = true) :
      Move w (w.concluded r y outcome)
  /-- The end of a connection begins. -/
  | cut {c : Nat} {x : Connection} {q : List Task} (flush : Bool) (hx : w.conns[c]? = some x)
      (hp : x.phase.isLive = true) (hq : w.ready <+: q)
      (hw : ∀ k ∈ x.waiters, ∀ y : Call, w.calls[k]? = some y → y.isWaiting = true →
        y.waiter ∈ q) :
      Move w { w.severed c x flush with ready := q }

/-- A series of moves. -/
inductive Moves : Network → Network → Prop where
  | refl (w : Network) : Moves w w
  | tail {u v w : Network} (h : Moves u v) (hm : Move v w) : Moves u w

/-- A series of moves, of tasks that are taken out of the queue, and of calls that are given up. -/
inductive Path : Network → Network → Prop where
  | refl (w : Network) : Path w w
  | move {u v w : Network} (h : Path u v) (hm : Move v w) : Path u w
  | pop {u v : Network} {t : Task} {q : List Task} (h : Path u v) (hq : v.ready = t :: q) :
      Path u { v with ready := q }
  | drop {u v : Network} {k : Nat} {x : Call} (h : Path u v) (hk : v.calls[k]? = some x)
      (hx : x.isOver = false) (ho : v.Owns k x.conn x.id) : Path u (v.givenUp k x)

namespace Moves

variable {u v w : Network}

/-- A move is a row of moves. -/
theorem single (h : Move u v) : Moves u v := .tail (.refl u) h

theorem trans (h : Moves u v) (h' : Moves v w) : Moves u w := by
  induction h' with
  | refl => exact h
  | tail _ hm ih => exact ih.tail hm

end Moves

namespace Path

variable {u v w : Network}

/-- Moves go on along a path. -/
theorem moves (h : Path u v) (h' : Moves v w) : Path u w := by
  induction h' with
  | refl => exact h
  | tail _ hm ih => exact ih.move hm

/-- Moves by themselves are a path. -/
theorem of_moves (h : Moves u v) : Path u v := (Path.refl u).moves h

theorem trans (h : Path u v) (h' : Path v w) : Path u w := by
  induction h' with
  | refl => exact h
  | move _ hm ih => exact ih.move hm
  | pop _ hq ih => exact ih.pop hq
  | drop _ hk hx ho ih => exact ih.drop hk hx ho

/-- What every move keeps, and what does not depend on the queue, holds along every path. -/
theorem keeps {P : Network → Prop} (h : Path u v) (move : ∀ {w w'}, P w → Move w w' → P w')
    (pop : ∀ {w : Network} (q), P w → P { w with ready := q })
    (drop : ∀ {w : Network} {k : Nat} {x : Call}, P w → w.calls[k]? = some x →
      x.isOver = false → w.Owns k x.conn x.id → P (w.givenUp k x)) (hP : P u) : P v := by
  induction h with
  | refl => exact hP
  | move _ hm ih => exact move ih hm
  | pop _ hq ih => exact pop _ ih
  | drop _ hk hx ho ih => exact drop ih hk hx ho

end Path

end Network

end Parley

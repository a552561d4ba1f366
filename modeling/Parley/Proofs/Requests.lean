import Parley.Proofs.Delivery

/-!
# What becomes of requests

Seen from the requests that come in, little happens in a network: a request is refused, or a run
begins that serves it, and a run ends. Everything else leaves requests, replies and the ends of runs
alone.

- `Journal.requests`, `Journal.replies`: the requests that came in over a connection, and the
  replies that it accepted.
- `Reply.carrying`: a reply, field by field.
- `Journal.taken`, `Journal.due`: what is done about the requests, and the replies that follow.
- `Journal.spawns`, `Journal.endings`: the history of one run.
- `Network.Duty`: what a move changes of them, and of the runs that dispatchers know;
  `Network.Move.duty` says that this is all.
-/

namespace Parley

/-! ## Requests and replies in the journal -/

namespace Message

/-- Whether a message is a request. -/
def isRequest : Message → Bool
  | .request _ _ _ => true
  | _ => false

/-- The identifier of a request. -/
def requestId? : Message → Option Id
  | .request id _ _ => some id
  | _ => none

/-- Whether a message cancels a request. -/
def isCancel : Message → Bool
  | .notification method _ => method = cancelMethod
  | _ => false

/-- The reply that a message is. -/
def reply? : Message → Option Reply
  | .reply r => some r
  | _ => none

end Message

/-- The reply to a request with an outcome, field by field: it has a result or a failure, and not
both. -/
def Reply.carrying (id : Id) : Except Failure Json → Reply
  | .ok v => { id, result := some v, failure := none }
  | .error f => { id, result := none, failure := some f }

/-- What is sent for an outcome is the reply that carries it, value or failure. -/
theorem Reply.ofOutcome_eq (id : Id) (outcome : Except Failure Json) :
    Reply.ofOutcome id outcome = .carrying id outcome := by
  cases outcome <;> rfl

namespace Journal

/-- The identifiers of the requests that came in over a connection, in order. -/
def requests (c : Nat) (j : Journal) : List Id := (j.received c).filterMap Message.requestId?

/-- The replies that a connection accepted for sending, in order. -/
def replies (c : Nat) (j : Journal) : List Reply := (j.accepted c).filterMap Message.reply?

/-- The requests that came in over a connection and were refused, or got a run, in order. -/
def taken (c : Nat) : Journal → List Message
  | [] => []
  | .unserved d id method params :: j =>
    if d = c then taken c j ++ [.request id method params] else taken c j
  | .spawned _ d m :: j => if d = c ∧ m.isRequest = true then taken c j ++ [m] else taken c j
  | _ :: j => taken c j

/-- The replies that a connection owes, in order: one for each request that is refused, which says
that there is no such method, and one for each run of a request that ends before the end of the
connection begins, which carries what the run ended with. -/
def due (c : Nat) : Journal → List Reply
  | [] => []
  | .unserved d id method _ :: j =>
    if d = c then
      due c j ++ [.carrying id (.error ⟨.methodNotFound, "No such method " ++ method, none⟩)]
    else due c j
  | .finished _ d (some id) outcome :: j =>
    if d = c ∧ cuts c j = [] then due c j ++ [.carrying id outcome] else due c j
  | _ :: j => due c j

/-- How a run began, each time. -/
def spawns (r : Nat) : Journal → List (Nat × Message)
  | [] => []
  | .spawned s c m :: j => if s = r then spawns r j ++ [(c, m)] else spawns r j
  | _ :: j => spawns r j

/-- How a run ended, each time: over which connection, for which request, and with what. -/
def endings (r : Nat) : Journal → List (Nat × Option Id × Except Failure Json)
  | [] => []
  | .finished s c id outcome :: j =>
    if s = r then endings r j ++ [(c, id, outcome)] else endings r j
  | _ :: j => endings r j

/-- A message comes in. -/
theorem requests_received (c d : Nat) (m : Message) (j : Journal) :
    Journal.requests c (.received d m :: j) =
      j.requests c ++ if d = c then m.requestId?.toList else [] := by
  by_cases h : d = c
  · cases m <;> simp [requests, received, h, Message.requestId?]
  · simp [requests, received, h]

/-- A message is accepted. -/
theorem replies_accepted (c d : Nat) (m : Message) (j : Journal) :
    Journal.replies c (.accepted d m :: j) =
      j.replies c ++ if d = c then m.reply?.toList else [] := by
  by_cases h : d = c
  · cases m <;> simp [replies, accepted, h, Message.reply?]
  · simp [replies, accepted, h]

end Journal

/-! ## Events that have nothing to do with requests -/

/-- Whether an event is about a request that came in, its cancellation, its run, or its reply. -/
def Event.serves : Event → Bool
  | .received _ m => m.isRequest || m.isCancel
  | .accepted _ m => m.reply?.isSome
  | .spawned _ _ _ | .unserved _ _ _ _ | .finished _ _ _ _ => true
  | _ => false

namespace Journal

variable {c r : Nat} {es j : Journal} {e : Event}

/-- What is read off a journal, and what an event that does not serve leaves alone, is left alone by
a series of them. -/
theorem eq_of_not_serves {α : Type} {f : Journal → α}
    (hf : ∀ {e : Event}, e.serves = false → ∀ j, f (e :: j) = f j)
    (h : ∀ e ∈ es, e.serves = false) : f (es ++ j) = f j := by
  induction es with
  | nil => rfl
  | cons e es ih =>
    rw [List.cons_append, hf (h e List.mem_cons_self)]
    exact ih fun e he => h e (List.mem_cons_of_mem _ he)

/-- What is nothing to the served requests adds no request to those that were received. -/
theorem requests_of_not_serves (h : e.serves = false) (j : Journal) :
    Journal.requests c (e :: j) = j.requests c := by
  cases e with
  | received d m =>
    cases m with
    | request => cases h
    | _ => simp [requests_received, Message.requestId?]
  | _ => rfl

/-- Nor a reply to those that were accepted. -/
theorem replies_of_not_serves (h : e.serves = false) (j : Journal) :
    Journal.replies c (e :: j) = j.replies c := by
  cases e with
  | accepted d m =>
    cases m with
    | reply => cases h
    | _ => simp [replies_accepted, Message.reply?]
  | _ => rfl

/-- The requests among the messages that came in, whole. -/
theorem received_of_not_serves (h : e.serves = false) (j : Journal) :
    (Journal.received c (e :: j)).filter Message.isRequest =
      (j.received c).filter Message.isRequest := by
  cases e with
  | received d m =>
    have hm : m.isRequest = false := (Bool.or_eq_false_iff.mp h).1
    by_cases hd : d = c <;> simp [received, hd, hm]
  | _ => rfl

/-- Nor a request to those that were taken up or refused. -/
theorem taken_of_not_serves (h : e.serves = false) (j : Journal) :
    Journal.taken c (e :: j) = j.taken c := by
  cases e <;> first | rfl | cases h

theorem due_of_not_serves (h : e.serves = false) (j : Journal) :
    Journal.due c (e :: j) = j.due c := by
  cases e <;> first | rfl | cases h

theorem spawns_of_not_serves (h : e.serves = false) (j : Journal) :
    Journal.spawns r (e :: j) = j.spawns r := by
  cases e <;> first | rfl | cases h

theorem endings_of_not_serves (h : e.serves = false) (j : Journal) :
    Journal.endings r (e :: j) = j.endings r := by
  cases e <;> first | rfl | cases h

end Journal

namespace Connection

variable {x y : Connection} {c : Nat} {es : List Event} {e : Event}

/-- Other messages than replies are nothing to the served requests when they are accepted. -/
theorem serves_offered {m : Message} (hm : m.reply? = none) (h : e ∈ x.offered c m) :
    e.serves = false := by
  obtain rfl := mem_offered h
  simp [Event.serves, hm]

theorem serves_forgot {id : Id} (h : e ∈ x.forgot c id) : e.serves = false := by
  obtain rfl := mem_forgot h
  rfl

/-- What the loops write down in a turn is nothing to the served requests. -/
theorem Turn.serves (h : x.Turn c es y) (he : e ∈ es) : e.serves = false := by
  obtain ⟨bs, rfl⟩ | rfl := h.mem he
  · rfl
  · rfl

/-- A connection that was connected keeps a link. -/
theorem exists_link_offer {l : Link} (hl : x.link = some l) (m : Message) :
    ∃ k, (x.offer m).link = some k := by
  rcases x.offer_cases 0 m with ⟨l', -, -, -, hx⟩ | ⟨-, -, hx⟩
  · exact ⟨_, by rw [hx]⟩
  · exact ⟨l, by rw [hx, hl]⟩

end Connection

/-- Whatever a connection does short of its end, it keeps a link. -/
theorem ConnMove.link {c : Nat} {x y : Connection} {es : List Event} {l : Link}
    (h : ConnMove c x es y) (hl : x.link = some l) : ∃ k, y.link = some k := by
  cases h with
  | turn h =>
    cases h with
    | beginFrame => exact ⟨_, rfl⟩
    | stopAborted | stopDrained | stopBroken =>
      exact ⟨_, by rw [Connection.stopWriting, hl, Option.map_some]⟩
    | _ => exact ⟨l, hl⟩
  | notify method params => exact Connection.exists_link_offer hl _
  | refuse h => exact Connection.exists_link_offer hl _
  | reply r id outcome => exact Connection.exists_link_offer hl _
  | forget id =>
    rcases x.forget_cases c id with ⟨l', k, y, -, -, rfl, -, hx⟩ | ⟨-, -, hx⟩
    · rw [hx]
      exact Connection.exists_link_offer rfl _
    · exact ⟨l, by rw [hx, hl]⟩
  | start | call | answer | strand => exact ⟨_, rfl⟩
  | cut h flush => exact ⟨_, by rw [Connection.cut, hl, Option.map_some]⟩
  | _ => exact ⟨l, hl⟩

theorem ConnMoves.link {c : Nat} {x y : Connection} {es : List Event} {l : Link}
    (h : ConnMoves c x es y) (hl : x.link = some l) : ∃ k, y.link = some k := by
  induction h with
  | refl => exact ⟨l, hl⟩
  | tail _ hm ih =>
    obtain ⟨k, hk⟩ := ih
    exact hm.link hk

/-! ## What a move changes -/

/-- What a run has ended with. -/
def Run.outcome? (y : Run) : Option (Except Failure Json) :=
  match y.stage with
  | .finished o => some o
  | _ => none

/-- What a run serves, and what it has ended with. -/
def Run.status (y : Run) : Run × Option (Except Failure Json) := (y.origin, y.outcome?)

namespace Dispatcher

variable (x : Dispatcher) (id i : Id) (r : Nat)

/-- A request that enters is found under its id, whatever stood there before. -/
theorem lookup_enter :
    (x.enter id r).inflight.lookup i = if i = id then some r else x.inflight.lookup i := by
  rw [enter, List.lookup_cons]
  by_cases h : i = id
  · simp [h]
  · rw [if_neg h, beq_false_of_ne h]
    exact Link.lookup_without_of_ne h x.inflight

/-- A request that leaves is found no more, and the others are found as before. -/
theorem lookup_leave :
    (x.leave id).inflight.lookup i = if i = id then none else x.inflight.lookup i := by
  rw [leave]
  by_cases h : i = id
  · rw [if_pos h, h]
    exact Link.lookup_without id x.inflight
  · rw [if_neg h]
    exact Link.lookup_without_of_ne h x.inflight

end Dispatcher

namespace Network

variable {w w' : Network}

/-! ## The runs that dispatchers know -/

/-- What changes in one dispatcher changes what is held there only. -/
theorem held_modifyDispatcher (w : Network) (d : Nat) (f : Dispatcher → Dispatcher) (e : Nat)
    (i : Id) :
    (w.modifyDispatcher d f).held e i =
      (w.dispatchers[e]?).bind fun x => (if d = e then f x else x).inflight.lookup i := by
  rw [held, modifyDispatcher, List.getElem?_modify]
  cases w.dispatchers[e]? <;> rfl

/-- A dispatcher changes, but not the runs that it knows. -/
theorem held_modifyDispatcher_same (w : Network) {d : Nat} {f : Dispatcher → Dispatcher}
    (hf : ∀ x, w.dispatchers[d]? = some x → (f x).inflight = x.inflight) :
    (w.modifyDispatcher d f).held = w.held := by
  funext e i
  rw [held_modifyDispatcher, held]
  cases hx : w.dispatchers[e]? with
  | none => rfl
  | some x =>
    by_cases h : d = e
    · subst h
      simp [hf x hx]
    · simp [h]

/-- A dispatcher whose requests in flight stay the same holds what it held. -/
theorem held_set {d : Nat} {x y : Dispatcher} (hx : w.dispatchers[d]? = some x)
    (hi : y.inflight = x.inflight) :
    ({ w with dispatchers := w.dispatchers.set d y } : Network).held = w.held := by
  rw [← modify_eq_set hx fun _ => y]
  refine held_modifyDispatcher_same w fun z hz => ?_
  obtain rfl := Option.some.inj (hx.symm.trans hz)
  exact hi

/-- A dispatcher that was just made knows no run. -/
theorem held_openDispatcher (w : Network) :
    ({ w with dispatchers := w.dispatchers ++ [{}] } : Network).held = w.held := by
  funext d i
  simp only [held]
  cases hd : w.dispatchers[d]? with
  | some x => rw [getElem?_append_of_some hd]
  | none =>
    cases hn : (w.dispatchers ++ [({} : Dispatcher)])[d]? with
    | none => rfl
    | some x =>
      rcases getElem?_append_one hn with hn | ⟨-, rfl⟩
      · cases hn.symm.trans hd
      · rfl

/-- A request that enters is held by its dispatcher, under its id. -/
theorem held_enter {d : Nat} {x : Dispatcher} (hx : w.dispatchers[d]? = some x) (id : Id)
    (r e : Nat) (i : Id) :
    (w.modifyDispatcher d fun x => x.enter id r).held e i =
      if e = d ∧ i = id then some r else w.held e i := by
  rw [held_modifyDispatcher, held]
  by_cases h : d = e
  · subst h
    simp [hx, Dispatcher.lookup_enter]
  · simp [h, Ne.symm h]

/-- One that leaves is held no more. -/
theorem held_leave (w : Network) (d : Nat) (id : Id) (e : Nat) (i : Id) :
    (w.modifyDispatcher d fun x => x.leave id).held e i =
      if e = d ∧ i = id then none else w.held e i := by
  rw [held_modifyDispatcher, held]
  by_cases h : d = e
  · subst h
    cases w.dispatchers[d]? with
    | none => simp
    | some x => simp [Dispatcher.lookup_leave]
  · simp [h, Ne.symm h]

/-! ## Requests, runs and replies -/

/-- The reply that follows the end of a run: none for a notification, and none once the end of its
connection has begun. -/
def following (w : Network) (y : Run) (outcome : Except Failure Json) : List Event :=
  y.id.elim [] fun id =>
    if w.journal.cuts y.conn = [] then [.accepted y.conn (.reply (.ofOutcome id outcome))] else []

/-- What a move changes of requests, runs and replies. -/
inductive Duty (w : Network) : Network → Prop where
  /-- Nothing. -/
  | quiet {w' : Network} (es : List Event) (hr : w'.runs.map Run.status = w.runs.map Run.status)
      (hj : w'.journal = es ++ w.journal) (he : ∀ e ∈ es, e.serves = false)
      (hd : w'.held = w.held) : Duty w w'
  /-- A cancellation comes in, and what it names is cancelled. -/
  | heed {w' : Network} {c d : Nat} {x : Connection} {params : Json} (hx : w.conns[c]? = some x)
      (hread : x.IsReading) (hb : x.dispatcher = some d)
      (hr : w'.runs = w.runsAfter (w.named d params))
      (hj : w'.journal = .received c (.notification cancelMethod params) :: w.journal)
      (hd : w'.held = w.held) : Duty w w'
  /-- A run begins that serves a notification. -/
  | spawn {w' : Network} {y : Run} (hi : y.id = none) (hs : y.stage = .fresh)
      (hr : w'.runs = w.runs ++ [y])
      (hj : w'.journal = .spawned w.runs.length y.conn y.message :: w.journal)
      (hd : w'.held = w.held) : Duty w w'
  /-- A request comes in, and a run begins that serves it. -/
  | serve {w' : Network} {x : Connection} {y : Run} {id : Id} (hi : y.id = some id)
      (hs : y.stage = .fresh) (hr : w'.runs = w.runs ++ [y])
      (hj : w'.journal = .spawned w.runs.length y.conn y.message :: .received y.conn y.message ::
        w.journal)
      (hx : w.conns[y.conn]? = some x) (hread : x.IsReading)
      (hb : x.dispatcher = some y.dispatcher)
      (hd : ∀ d i, w'.held d i =
        if d = y.dispatcher ∧ i = id then some w.runs.length else w.held d i) : Duty w w'
  /-- A request comes in that no handler serves. -/
  | refuse {w' : Network} (c : Nat) (id : Id) (method : String) (params : Json)
      (hr : w'.runs = w.runs)
      (hj : w'.journal = .accepted c (.reply (.err id (noSuchMethod method))) ::
        .unserved c id method params :: .received c (.request id method params) :: w.journal)
      (hd : w'.held = w.held) : Duty w w'
  /-- A run ends. -/
  | finish {w' : Network} {r : Nat} {y : Run} {outcome : Except Failure Json}
      (hy : w.runs[r]? = some y) (hs : y.outcome? = none)
      (hr : w'.runs = w.runs.modify r fun y => { y with stage := .finished outcome })
      (hj : w'.journal =
        w.following y outcome ++ .finished r y.conn y.id outcome :: w.journal)
      (hd : ∀ d i, w'.held d i =
        if d = y.dispatcher ∧ y.id = some i then none else w.held d i) : Duty w w'

/-- Whether a connection is or was connected. -/
def HasLink (w : Network) (c : Nat) : Prop :=
  ∃ (x : Connection) (l : Link), w.conns[c]? = some x ∧ x.link = some l

/-- Every run serves a message of a connection that is or was connected. -/
def Linked (w : Network) : Prop := ∀ y ∈ w.runs, w.HasLink y.conn

/-- What is queued when a connection that was connected is asked to send a reply. -/
theorem offered_reply {c : Nat} {x : Connection} {l : Link} (hS : w.Each Connection.Sound)
    (hx : w.conns[c]? = some x) (hl : x.link = some l) (r : Reply) :
    x.offered c (.reply r) = if w.journal.cuts c = [] then [.accepted c (.reply r)] else [] := by
  cases hS.conn c x hx with
  | unused hu => cases hl.symm.trans hu.link
  | live h =>
    have ho : x.isOpen = true := by rw [Connection.isOpen_of_link h.link, h.isOpen]
    rw [Connection.offered_of_open c _ ho, if_pos h.cuts]
  | ended h =>
    rw [Connection.offered_of_not_open c _ h.isOpen_eq_false, if_neg (by simp [h.cuts])]

/-- What changes one run, but neither what it serves nor its end, changes no status. -/
theorem map_status_modify {r : Nat} (f : Run → Run)
    (hf : ∀ y, w.runs[r]? = some y → (f y).status = y.status) :
    (w.runs.modify r f).map Run.status = w.runs.map Run.status := by
  refine List.ext_getElem? fun i => ?_
  simp only [List.getElem?_map, List.getElem?_modify]
  cases hy : w.runs[i]? with
  | none => rfl
  | some y =>
    by_cases h : r = i
    · subst h
      simp [hf y hy]
    · simp [h]

/-- A run that is told to stop has the same status; it may still be asked to answer. -/
theorem map_status_runsAfter (w : Network) (o : Option Nat) :
    (w.runsAfter o).map Run.status = w.runs.map Run.status := by
  cases o with
  | none => rfl
  | some r => exact map_status_modify _ fun _ _ => rfl

/-- The cancellation that follows a withdrawal is no reply. -/
theorem serves_withdraw (w : Network) (c : Nat) (id : Id) :
    ∃ es, (w.withdraw c id).journal = es ++ w.journal ∧ ∀ e ∈ es, e.serves = false := by
  refine ⟨_, rfl, fun e he => ?_⟩
  cases hx : w.conns[c]? with
  | none => simp [hx] at he
  | some x =>
    rw [hx, Option.elim_some] at he
    exact Connection.serves_forgot he

/-- A call that is over because it lasted too long. -/
theorem serves_expired (w : Network) (k : Nat) (x : Call) :
    ∃ es, (w.expired k x).journal = es ++ w.journal ∧ ∀ e ∈ es, e.serves = false := by
  obtain ⟨es, hj, he⟩ := serves_withdraw w x.conn x.id
  refine ⟨.ended k (.error (.timedOut x.method)) :: es, ?_, fun e hm => ?_⟩
  · rw [List.cons_append, ← hj]
    rfl
  · rcases List.mem_cons.mp hm with rfl | hm
    · rfl
    · exact he e hm

namespace Duty

/-- Events that serve no request, while runs and dispatchers stay as they are. -/
theorem aside (es : List Event) (hr : w'.runs = w.runs) (hd : w'.dispatchers = w.dispatchers)
    (hj : w'.journal = es ++ w.journal) (he : ∀ e ∈ es, e.serves = false) : Duty w w' := by
  refine .quiet es (by rw [hr]) hj he ?_
  funext d i
  rw [held, hd, held]

/-- A call begins that has no time at all. -/
theorem callLate (w : Network) (l : Link) (x : Call) (params : Json) :
    Duty w ((w.begun x l params).expired w.calls.length x) := by
  obtain ⟨es, hj, he⟩ := serves_expired (w.begun x l params) w.calls.length x
  refine .aside (es ++ [.accepted x.conn (.request x.id x.method params),
    .started w.calls.length]) rfl rfl ?_ fun e hm => ?_
  · rw [hj, List.append_assoc]
    rfl
  · rcases List.mem_append.mp hm with hm | hm
    · exact he e hm
    · simp only [List.mem_cons, List.not_mem_nil, or_false] at hm
      rcases hm with rfl | rfl <;> rfl

/-- A message comes in that is no request: only a cancellation is about a request. -/
theorem receive {c d : Nat} {x : Connection} {m : Message} (hx : w.conns[c]? = some x)
    (hr : x.IsReading) (hd : x.dispatcher = some d)
    (hm : ∀ id method params, m ≠ .request id method params) :
    Duty w ((w.heed d m).emit (.received c m)) := by
  have hheld : (w.heed d m).held = w.held :=
    held_modifyDispatcher_same w fun x _ => congrArg (·.inflight) (x.heed_eq m)
  by_cases hcancel : m.isCancel = true
  · obtain ⟨params, rfl⟩ : ∃ params, m = .notification cancelMethod params := by
      cases m with
      | notification method params => exact ⟨params, by rw [of_decide_eq_true hcancel]⟩
      | _ => cases hcancel
    rw [heed_cancel] at hheld ⊢
    exact .heed hx hr hd rfl rfl hheld
  · refine .quiet [.received c m] (map_status_runsAfter w _) rfl (fun e he => ?_) hheld
    obtain rfl := List.mem_singleton.mp he
    cases m with
    | request id method params => exact absurd rfl (hm id method params)
    | notification method params => simpa [Event.serves, Message.isRequest] using hcancel
    | _ => rfl

/-- A request comes in that no handler serves, over a connection that can still send the reply. -/
theorem refused {c : Nat} {x : Connection} (hS : w.Each Connection.Sound)
    (hx : w.conns[c]? = some x) (hr : x.IsReading) (id : Id) (method : String) (params : Json) :
    Duty w (((w.emit (.received c (.request id method params))).emit
      (.unserved c id method params)).enqueue c (.reply (.err id (noSuchMethod method)))) := by
  obtain ⟨l, hl⟩ := (hS.conn c x hx).live_of_isReading hr
  have he := offered_reply hS hx hl.link (.err id (noSuchMethod method))
  rw [if_pos hl.cuts] at he
  refine .refuse c id method params rfl ?_ rfl
  simp only [enqueue, emit, hx, Option.elim_some, he]
  rfl

/-- A run ends that has not ended before, and its reply follows as long as it can be sent. -/
theorem concluded {r : Nat} {y : Run} (hS : w.Each Connection.Sound) (hL : w.Linked)
    (hy : w.runs[r]? = some y) (hf : ∀ o, y.stage ≠ .finished o) (outcome : Except Failure Json) :
    Duty w (w.concluded r y outcome) := by
  obtain ⟨-, -, -, hr⟩ := concluded_rest w r y outcome
  -- An unfinished run has no outcome yet, so this is its first.
  have hs : y.outcome? = none := by
    rw [Run.outcome?]
    split
    · next o ho => exact absurd ho (hf o)
    · rfl
  refine .finish hy hs hr ?_ fun d i => ?_
  · -- The reply is accepted if the connection is open: its queue and the journal say the same of
    -- that.
    obtain ⟨x, l, hx, hl⟩ := hL y (List.mem_of_getElem? hy)
    rw [Network.concluded, following]
    cases hi : y.id with
    | none => rfl
    | some id =>
      rw [Option.elim_some, Option.elim_some, ← offered_reply hS hx hl]
      simp [enqueue, modifyDispatcher, emit, modifyRun, hx]
  · -- The id is freed in the table of the dispatcher, whoever holds it by now.
    rw [Network.concluded]
    cases y.id with
    | none =>
      rw [if_neg (by simp)]
      rfl
    | some id =>
      simp only [Option.some.injEq, eq_comm (a := id)]
      exact held_leave _ y.dispatcher id d i

end Duty

/-- Every move changes no more than that. -/
theorem Move.duty (hS : w.Each Connection.Sound) (hL : w.Linked) (h : Move w w') : Duty w w' := by
  -- Moves fall in two groups: those that touch no served request, each by the events it writes
  -- down, and those that take one up, refuse one or finish one.
  have h0 : ∀ e ∈ ([] : List Event), e.serves = false := by simp
  cases h with
  | remark e he =>
    refine .aside [e] rfl rfl rfl fun e' hm => ?_
    obtain rfl := List.mem_singleton.mp hm
    cases e' <;> first | rfl | cases he
  | openDispatcher => exact .quiet [] rfl rfl h0 (held_openDispatcher w)
  | arrange hx hk => exact .quiet [] rfl rfl h0 (held_set hx hk.inflight)
  | register descriptor r hx => exact .quiet [] rfl rfl h0 (held_set hx rfl)
  | connect d hx hp hd hy =>
    exact .quiet [] rfl rfl h0 (held_modifyDispatcher_same (w.modifyConn _ _) fun _ _ => rfl)
  | turn hx ht => exact .aside _ rfl rfl rfl fun e he => ht.serves he
  | notify c method params =>
    refine .aside _ rfl rfl rfl fun e he => ?_
    cases hx : w.conns[c]? with
    | none => simp [hx] at he
    | some x =>
      rw [hx, Option.elim_some] at he
      -- The request of a forwarding handler is one that is sent: nothing is served by it yet.
      exact Connection.serves_offered rfl he
  | @call l l' x params =>
    exact .aside [.accepted x.conn (.request x.id x.method params),
      .started w.calls.length] rfl rfl rfl (by simp [Event.serves, Message.reply?])
  | @forward l l' x params r y hl hs hn hx hw ht hd hy hf =>
    refine .quiet [.accepted x.conn (.request x.id x.method params), .started w.calls.length]
      (map_status_modify _ fun z hz => ?_) rfl (by simp [Event.serves, Message.reply?]) rfl
    obtain rfl := Option.some.inj (hy.symm.trans hz)
    simp [Run.status, Run.outcome?, Run.origin, hf]
  | @callLate l l' x params => exact .callLate w l' x params
  | learn => exact .aside [.ended _ _] rfl rfl rfl (by simp [Event.serves])
  | lose => exact .aside [.ended _ _] rfl rfl rfl (by simp [Event.serves])
  | @expire k x =>
    obtain ⟨es, hj, he⟩ := serves_expired w k x
    exact .aside es rfl rfl hj he
  | @answer c k x r =>
    exact .aside [.received c (.reply r)] rfl rfl rfl
      (by simp [Event.serves, Message.isRequest, Message.isCancel])
  -- From here on requests are served.
  | receive hx hr hd hm => exact .receive hx hr hd hm
  | @spawn c x y hx hr hk hc hi hs => exact .spawn hi hs rfl (by rw [hc]; rfl) rfl
  | @serve c x y d id hx hr hd hd' hh hc hi hs =>
    subst hc
    exact .serve hi hs rfl rfl hx hr hd (held_enter hd' id w.runs.length)
  | refuse hx hr => exact .refused hS hx hr _ _ _
  -- A run that waits has no outcome: it has the status it had.
  | wait hy hf hm hs =>
    refine .quiet [] (map_status_modify _ fun z hz => ?_) rfl h0 rfl
    obtain rfl := Option.some.inj (hy.symm.trans hz)
    cases hm <;> simp [Run.status, Run.outcome?, Run.origin, hf]
  | finish hy hf => exact .concluded hS hL hy hf _
  | @strand c k => exact .aside [.stranded k] rfl rfl rfl (by simp [Event.serves])
  | cut flush => exact .aside [.cut _ flush] rfl rfl rfl (by simp [Event.serves])
  | _ => exact .aside [] rfl rfl rfl h0

/-- A call is given up. -/
theorem Duty.givenUp (w : Network) (k : Nat) (x : Call) : Duty w (w.givenUp k x) := by
  obtain ⟨es, hj, he⟩ := serves_withdraw w x.conn x.id
  refine .quiet (.dropped k :: es) rfl ?_ (fun e hm => ?_) rfl
  · rw [List.cons_append, ← hj]
    rfl
  · rcases List.mem_cons.mp hm with rfl | hm
    · rfl
    · exact he e hm

/-! ## The connections of runs -/

/-- Seen from the tasks, links are not given back. -/
theorem View.hasLink {c : Nat} (h : View w w') (hc : w.HasLink c) : w'.HasLink c := by
  obtain ⟨x, l, hx, hl⟩ := hc
  obtain ⟨es, -, hv⟩ := h
  rcases hv c with ⟨x', y, hx', hy, hm⟩ | ⟨hn, -, -⟩
  · obtain rfl := Option.some.inj (hx.symm.trans hx')
    obtain ⟨k, hk⟩ := hm.link hl
    exact ⟨y, k, hy, hk⟩
  · cases hx.symm.trans hn

/-- Every move keeps the links of the connections of runs. -/
theorem Linked.step (hL : w.Linked) (hw : w.Housed) (hS : w.Each Connection.Sound)
    (h : Move w w') : w'.Linked := by
  have keep : ∀ c, w.HasLink c → w'.HasLink c := fun c hc => by
    rcases h.view hw with hv | ⟨xs, -, rfl⟩
    · exact hv.hasLink hc
    · obtain ⟨x, l, hx, hl⟩ := hc
      exact ⟨x, l, getElem?_append_of_some hx xs, hl⟩
  intro y' hy
  obtain ⟨r, hr⟩ := List.getElem?_of_mem hy
  refine keep _ ?_
  rcases h.run_cases hr with ⟨y, hy, ho⟩ | ⟨-, -, x, hx, hread⟩
  · have hc : y'.origin.conn = y.origin.conn := by rw [ho]
    change y'.conn = y.conn at hc
    rw [hc]
    exact hL y (List.mem_of_getElem? hy)
  · obtain ⟨l, hl⟩ := (hS.conn _ x hx).live_of_isReading hread
    exact ⟨x, l, hx, hl.link⟩

/-- Giving up a call leaves every connection its link. -/
theorem Linked.givenUp (hL : w.Linked) (k : Nat) (x : Call) : (w.givenUp k x).Linked :=
  fun y hy => (View.givenUp k x).hasLink (hL y hy)

end Network

end Parley

import Parley.Network.Handling
import Parley.Proofs.History

/-!
# What may happen to one connection

Whatever a network does, one of its connections sees little of it: its loops go on, a message is put
into its queue or handed on, a call over it is over, or its end begins. These are its moves. A move
says what becomes of the connection and what is new in the journal, the latest first.

- `Connection.Turn`: what its two loops do.
- `ConnMove`: every move.
- `ConnMoves`: a series of moves.
-/

namespace Parley

namespace Connection

/-- Whether bytes that arrive are still looked at. -/
def IsReading (x : Connection) : Prop :=
  (∃ s, x.reading = .running s) ∧ x.shutdown = false

/-- Whether the loop that writes has begun and not stopped. -/
def IsWriting (x : Connection) : Prop :=
  x.writing = .idle ∨ ∃ rest, x.writing = .busy rest

/-! ## Messages into the queue -/

/-- The connection after it was asked to send a message; one that is not open refuses. -/
def offer (x : Connection) (m : Message) : Connection :=
  (x.link.bind (·.send m)).elim x fun l => { x with link := some l }

/-- What is new when a connection was asked to send a message. -/
def offered (x : Connection) (c : Nat) (m : Message) : List Event :=
  if x.isOpen then [.accepted c m] else []

/-- The connection after a request was given up: if it waited for its reply, the peer is told. -/
def forget (x : Connection) (id : Id) : Connection :=
  (x.link.bind (·.answer id)).elim x fun p => { x with link := some p.2 }.offer (cancelMessage id)

/-- What is new when a request was given up. -/
def forgot (x : Connection) (c : Nat) (id : Id) : List Event :=
  if (x.link.bind (·.answer id)).isSome then x.offered c (cancelMessage id) else []

/-- The connection when its loop that writes has stopped: nothing that is queued will be written. -/
def stopWriting (x : Connection) : Connection :=
  { x with writing := .stopped, link := x.link.map fun l => { l with queue := [] } }

section offer

variable {x : Connection} {l : Link} (c : Nat) (m : Message)

theorem isOpen_of_link (hl : x.link = some l) : x.isOpen = l.isOpen := by
  simp [isOpen, hl]

theorem offer_of_open (hl : x.link = some l) (ho : l.isOpen = true) :
    x.offer m = { x with link := some { l with queue := l.queue ++ [.message m] } } := by
  simp [offer, hl, Link.send, ho]

theorem offered_of_open (ho : x.isOpen = true) : x.offered c m = [.accepted c m] := by
  simp [offered, ho]

theorem offer_of_not_open (h : x.isOpen = false) : x.offer m = x := by
  cases hl : x.link with
  | none => simp [offer, hl]
  | some l =>
    rw [isOpen_of_link hl] at h
    simp [offer, hl, Link.send, h]

theorem offered_of_not_open (h : x.isOpen = false) : x.offered c m = [] := by
  simp [offered, h]

/-- A connection that is asked to send a message takes it or is left as it was. -/
theorem offer_cases (x : Connection) (c : Nat) (m : Message) :
    (∃ l, x.link = some l ∧ l.isOpen = true ∧ x.offered c m = [.accepted c m] ∧
      x.offer m = { x with link := some { l with queue := l.queue ++ [.message m] } }) ∨
    (x.isOpen = false ∧ x.offered c m = [] ∧ x.offer m = x) := by
  cases ho : x.isOpen with
  | false => exact .inr ⟨rfl, offered_of_not_open c m ho, offer_of_not_open m ho⟩
  | true =>
    obtain ⟨l, hl⟩ : ∃ l, x.link = some l := by
      cases hl : x.link with
      | none => simp [isOpen, hl] at ho
      | some l => exact ⟨l, rfl⟩
    have hlo : l.isOpen = true := by rwa [isOpen_of_link hl] at ho
    exact .inl ⟨l, hl, hlo, offered_of_open c m ho, offer_of_open m hl hlo⟩

end offer

/-- A request that is given up was in the table, and then it is not; or nothing happens. -/
theorem forget_cases (x : Connection) (c : Nat) (id : Id) :
    (∃ l k y, x.link = some l ∧ l.pending.lookup id = some k ∧
      y = { x with link := some { l with pending := Link.without id l.pending } } ∧
      x.forgot c id = y.offered c (cancelMessage id) ∧
      x.forget id = y.offer (cancelMessage id)) ∨
    ((∀ l, x.link = some l → l.pending.lookup id = none) ∧ x.forgot c id = [] ∧
      x.forget id = x) := by
  -- There is an entry to be forgotten, or there is not.
  cases hl : x.link with
  | none =>
    exact .inr ⟨by simp, by simp [forgot, hl], by simp [forget, hl]⟩
  | some l =>
    cases hk : l.pending.lookup id with
    | none =>
      refine .inr ⟨fun l' h => ?_, ?_, ?_⟩
      · rw [← Option.some.inj h]
        exact hk
      · simp [forgot, hl, Link.answer, hk]
      · simp [forget, hl, Link.answer, hk]
    | some k =>
      refine .inl ⟨l, k, _, rfl, hk, rfl, ?_, ?_⟩
      · have ho : (x.link.bind (·.answer id)).isSome = true := by
          simp [hl, Link.answer, hk]
        rw [forgot, if_pos ho, offered, offered, isOpen_of_link hl, isOpen_of_link rfl]
      · simp [forget, hl, Link.answer, hk]

/-- All that is new when a connection was asked to send a message is that it accepted it. -/
theorem mem_offered {x : Connection} {c : Nat} {m : Message} {e : Event}
    (h : e ∈ x.offered c m) : e = .accepted c m := by
  rcases x.offer_cases c m with ⟨l, -, -, he, -⟩ | ⟨-, he, -⟩
  · rw [he] at h
    exact List.mem_singleton.mp h
  · rw [he] at h
    exact absurd h List.not_mem_nil

/-- All that is new when a request was given up is that its cancellation was accepted. -/
theorem mem_forgot {x : Connection} {c : Nat} {id : Id} {e : Event} (h : e ∈ x.forgot c id) :
    e = .accepted c (cancelMessage id) := by
  rcases x.forget_cases c id with ⟨l, k, y, -, -, -, he, -⟩ | ⟨-, he, -⟩
  · rw [he] at h
    exact mem_offered h
  · rw [he] at h
    exact absurd h List.not_mem_nil

/-! ## The two loops -/

/-- What the loops of a connection do, and what becomes of its stream. -/
inductive Turn (c : Nat) (x : Connection) : List Event → Connection → Prop where
  | stream (s : Stream) : Turn c x [] { x with stream := s }
  /-- A connection that was never connected is closed at once. -/
  | giveBack (h : x.phase = .disconnected) : Turn c x [] x.giveBack
  | read (h : x.IsReading) (s : Frame.Intake) : Turn c x [] { x with reading := .running s }
  | stopReading {s : Frame.Intake} (h : x.reading = .running s)
      (he : x.shutdown = true ∨ x.phase.isLive = false) :
      Turn c x [] { x with reading := .stopped }
  /-- The next message is taken out of the queue. -/
  | beginFrame {l : Link} {m : Message} {q : List Outbound} (ha : x.aborted = false)
      (hw : x.writing = .idle) (hl : x.link = some l) (hq : l.queue = .message m :: q) :
      Turn c x [] { x with link := some { l with queue := q }, writing := .busy m.frame }
  | wrote {rest : List UInt8} (n : Nat) (ha : x.aborted = false) (hw : x.writing = .busy rest) :
      Turn c x [.wrote c (rest.take n)] { x with writing := .busy (rest.drop n) }
  | endFrame (hw : x.writing = .busy []) : Turn c x [] { x with writing := .idle }
  | stopAborted (ha : x.aborted = true) (hw : x.IsWriting) : Turn c x [] x.stopWriting
  /-- The end mark is the next entry in the queue. -/
  | stopDrained {l : Link} {q : List Outbound} (hw : x.writing = .idle) (hl : x.link = some l)
      (hq : l.queue = .close :: q) : Turn c x [] x.stopWriting
  | stopBroken (hp : x.phase.isLive = false) (hw : x.IsWriting) :
      Turn c x [.broke c] x.stopWriting
  | close (h : x.isFinished = true) : Turn c x [] { x with phase := .closed }

/-- The loops write down what they wrote, and that a write failed. -/
theorem Turn.mem {x y : Connection} {c : Nat} {es : List Event} {e : Event} (h : x.Turn c es y)
    (he : e ∈ es) : (∃ bs, e = .wrote c bs) ∨ e = .broke c := by
  cases h with
  | wrote n ha hw => exact .inl ⟨_, List.mem_singleton.mp he⟩
  | stopBroken hp hw => exact .inr (List.mem_singleton.mp he)
  | _ => exact absurd he List.not_mem_nil

end Connection

/-! ## Moves -/

/-- What may happen to a connection. -/
inductive ConnMove (c : Nat) (x : Connection) : List Event → Connection → Prop where
  /-- Something happened that is not about this connection. -/
  | elsewhere (e : Event) (h : e.concerns c = false) : ConnMove c x [e] x
  | turn {es : List Event} {y : Connection} (h : x.Turn c es y) : ConnMove c x es y
  | start (h : x.phase = .disconnected) (d : Nat) : ConnMove c x [] (x.start d)
  | notify (method : String) (params : Json) :
      ConnMove c x (x.offered c (.notification method params))
        (x.offer (.notification method params))
  /-- A call begins, with a request. -/
  | call {l l' : Link} {id : Id} (k : Nat) {method : String} {params : Json}
      (hl : x.link = some l) (hs : l.start k method params = some (id, l')) :
      ConnMove c x [.accepted c (.request id method params), .started k]
        { x with link := some l' }
  | forget (id : Id) : ConnMove c x (x.forgot c id) (x.forget id)
  /-- A reply ends the waiting of a call. -/
  | answer {r : Reply} {l l' : Link} {k : Nat} (h : x.IsReading) (hl : x.link = some l)
      (ha : l.answer r.id = some (k, l')) :
      ConnMove c x [.received c (.reply r)] { x with link := some l' }
  /-- A call loses its identifier to another one. -/
  | strand {id : Id} {l l' : Link} {k : Nat} (hl : x.link = some l)
      (ha : l.answer id = some (k, l')) : ConnMove c x [.stranded k] { x with link := some l' }
  /-- A message comes in that changes nothing here. -/
  | receive {m : Message} (h : x.IsReading)
      (hm : ∀ id method params, m ≠ .request id method params) :
      ConnMove c x [.received c m] x
  /-- A run begins that serves a notification. -/
  | spawn (h : x.IsReading) (r : Nat) (method : String) (params : Json) :
      ConnMove c x [.spawned r c (.notification method params)] x
  /-- A request comes in, and a run begins that serves it. -/
  | serve {id : Id} {method : String} {params : Json} (h : x.IsReading) (r : Nat) :
      ConnMove c x [.spawned r c (.request id method params),
        .received c (.request id method params)] x
  /-- A request comes in that no handler serves. -/
  | refuse {id : Id} {method : String} {params : Json} (h : x.IsReading) :
      ConnMove c x (x.offered c (.reply (.err id (noSuchMethod method))) ++
          [.unserved c id method params, .received c (.request id method params)])
        (x.offer (.reply (.err id (noSuchMethod method))))
  /-- A run is over that served a notification. -/
  | finish (r : Nat) (outcome : Except Failure Json) :
      ConnMove c x [.finished r c none outcome] x
  /-- A run is over that served a request. -/
  | reply (r : Nat) (id : Id) (outcome : Except Failure Json) :
      ConnMove c x (x.offered c (.reply (.ofOutcome id outcome)) ++
          [.finished r c (some id) outcome])
        (x.offer (.reply (.ofOutcome id outcome)))
  | cut (h : x.phase.isLive = true) (flush : Bool) :
      ConnMove c x [.cut c flush] (x.cut flush)

/-- A series of moves. -/
inductive ConnMoves (c : Nat) : Connection → List Event → Connection → Prop where
  | refl (x : Connection) : ConnMoves c x [] x
  | tail {x y z : Connection} {es fs : List Event} (h : ConnMoves c x es y)
      (hm : ConnMove c y fs z) : ConnMoves c x (fs ++ es) z

namespace ConnMoves

variable {c : Nat} {x y z : Connection} {es fs : List Event}

theorem single (h : ConnMove c x es y) : ConnMoves c x es y := by
  simpa using ConnMoves.tail (.refl x) h

theorem trans (h : ConnMoves c x es y) (h' : ConnMoves c y fs z) : ConnMoves c x (fs ++ es) z := by
  induction h' with
  | refl => exact h
  | tail _ hm ih => simpa using ih.tail hm

/-- What every move keeps, a series of moves keeps. -/
theorem keeps {P : Connection → Journal → Prop} {j : Journal} (h : ConnMoves c x es y)
    (step : ∀ {x y es j}, P x j → ConnMove c x es y → P y (es ++ j)) (hP : P x j) :
    P y (es ++ j) := by
  induction h with
  | refl => exact hP
  | tail _ hm ih => simpa using step ih hm

end ConnMoves

end Parley

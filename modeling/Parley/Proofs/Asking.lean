import Parley.Proofs.Requests
import Parley.Proofs.Resolution

/-!
# The requests of calls

A call asks with one request, which its connection accepts right after the call has begun. The
requests of a connection are numbered one after the other, so its peer can tell them apart by their
identifiers as long as not all integers of 64 bits were given.

- `Journal.requestOf`: the request of a call, with its connection.
- `Reachable.requestOf_call`: every call has one.
- `Connection.Numbered`: how the requests of a connection are numbered.
- `Reachable.filter_accepted`: a request is the only one under its identifier.
-/

namespace Parley

/-! ## The request of a call -/

/-- The request of a call, with its connection, if an event accepts it right after the event before,
with which the call begins. -/
def Event.requestOf? (k : Nat) : Event → Option Event → Option (Nat × Message)
  | .accepted c m, some (.started n) => if n = k then some (c, m) else none
  | _, _ => none

/-- A call that waits has begun. -/
theorem Fate.after_pending_ne_unborn {k c : Nat} {id : Id} (e : Event) :
    Fate.after k c id .pending e ≠ .unborn := by
  cases e with
  | received d m =>
    cases m with
    | reply r =>
      rw [after]
      split <;> rintro ⟨⟩
    | _ => rintro ⟨⟩
  | cut | ended | dropped | stranded =>
    rw [after]
    split <;> rintro ⟨⟩
  | _ => rintro ⟨⟩

namespace Journal

/-- The request of a call, with its connection: what was accepted right after the call had begun. -/
def requestOf (k : Nat) : Journal → Option (Nat × Message)
  | [] => none
  | e :: j => (requestOf k j).or (e.requestOf? k j.head?)

variable {k c : Nat} {j : Journal} {p : Nat × Message} {e : Event}

/-- The request of a call is the message accepted right after the call was started. -/
theorem exists_of_requestOf? {before : Option Event} (h : e.requestOf? k before = some p) :
    e = .accepted p.1 p.2 ∧ before = some (.started k) := by
  unfold Event.requestOf? at h
  split at h
  · split at h
    · next hn =>
      obtain rfl := Option.some.inj h
      exact ⟨rfl, by rw [hn]⟩
    · cases h
  · cases h

/-- What came first stays first. -/
theorem requestOf_append (h : j.requestOf k = some p) (es : Journal) :
    Journal.requestOf k (es ++ j) = some p := by
  induction es with
  | nil => exact h
  | cons e es ih => rw [List.cons_append, requestOf, ih, Option.some_or]

/-- A call that was not started has sent no request. -/
theorem requestOf_eq_none (h : .started k ∉ j) : j.requestOf k = none := by
  induction j with
  | nil => rfl
  | cons e j ih =>
    have hj : .started k ∉ j := fun hm => h (List.mem_cons_of_mem _ hm)
    rw [requestOf, ih hj, Option.none_or]
    cases hp : e.requestOf? k j.head? with
    | none => rfl
    | some p => exact absurd (List.mem_of_head? (exists_of_requestOf? hp).2) hj

/-- The request of a call that begins now. -/
theorem requestOf_begun (h : .started k ∉ j) (c : Nat) (m : Message) :
    Journal.requestOf k (.accepted c m :: .started k :: j) = some (c, m) := by
  rw [requestOf, requestOf, requestOf_eq_none h]
  simp [Event.requestOf?]

/-- The request of a call is among the accepted messages. -/
theorem mem_accepted_of_requestOf {m : Message} (h : j.requestOf k = some (c, m)) :
    m ∈ j.accepted c := by
  induction j with
  | nil => cases h
  | cons e j ih =>
    rw [← List.singleton_append, accepted_append]
    rw [requestOf, Option.or_eq_some_iff] at h
    rcases h with h | ⟨-, h⟩
    · exact List.mem_append_left _ (ih h)
    · obtain ⟨rfl, -⟩ := exists_of_requestOf? h
      exact List.mem_append_right _ (by simp [accepted])

/-- A call about which nothing is decided, not even that it waits, has not begun. -/
theorem started_notMem {id : Id} (h : j.fate k c id = .unborn) : .started k ∉ j := by
  induction j with
  | nil => exact List.not_mem_nil
  | cons e j ih =>
    rw [fate] at h
    have hj : Journal.fate k c id j = .unborn := by
      cases hf : Journal.fate k c id j with
      | unborn => rfl
      | pending =>
        rw [hf] at h
        exact absurd h (Fate.after_pending_ne_unborn e)
      | _ =>
        rw [hf, Fate.after_of_isDecided rfl] at h
        cases h
    intro hm
    rcases List.mem_cons.mp hm with rfl | hm
    · rw [hj, Fate.after, if_pos rfl] at h
      cases h
    · exact ih hj hm

end Journal

namespace Network

variable {w w' : Network} {c k : Nat}

/-- Every call has its request. -/
def AllAsked (w : Network) : Prop :=
  ∀ (k : Nat) (x : Call), w.calls[k]? = some x →
    ∃ params, w.journal.requestOf k = some (x.conn, .request x.id x.method params)

namespace AllAsked

/-- What does not change the calls leaves every call with its request. -/
theorem grow (h : w.AllAsked) (es : List Event) (hj : w'.journal = es ++ w.journal)
    {x y : Call} (hx : w.calls[k]? = some x) (hs : y = { x with state := y.state }) :
    ∃ params, w'.journal.requestOf k = some (y.conn, .request y.id y.method params) := by
  obtain ⟨params, hr⟩ := h k x hx
  rw [hs, hj]
  exact ⟨params, Journal.requestOf_append hr es⟩

/-- Every move leaves every call with its request. -/
theorem move (h : w.AllAsked) (hw : w.Housed) (hU : w.Unbegun) (hm : Move w w') :
    w'.AllAsked := by
  intro k y hy
  rcases hm.call_cases hy with ⟨x, hx, hs⟩ | ⟨rfl, x, l, l', params, -, -, hs, es, hj, -⟩
  · rcases hm.view hw with ⟨es, hj, -⟩ | ⟨xs, -, rfl⟩
    · exact h.grow es hj hx hs
    · exact h.grow [] rfl hx hs
  · have hn := Journal.started_notMem ((hU w.calls.length (Nat.le_refl _)).1 x.conn x.id)
    rw [hs, hj]
    exact ⟨params, Journal.requestOf_append (Journal.requestOf_begun hn _ _) es⟩

/-- A call that is given up has its request. -/
theorem givenUp (h : w.AllAsked) (k : Nat) (x : Call) : (w.givenUp k x).AllAsked := by
  intro n y hy
  obtain ⟨z, hz, rfl⟩ := getElem?_modify_eq_some hy
  obtain ⟨es, hj, -⟩ := View.givenUp (w := w) k x
  refine h.grow es hj hz ?_
  split <;> rfl

end AllAsked

/-- Every call has its request along every path. -/
theorem Path.asked (h : Path {} w) : w.AllAsked := by
  induction h with
  | refl => exact fun k x hx => by cases hx
  | move hp hm ih => exact ih.move (hp.housed (by simp [Housed])) hp.inOrder.1.unbegun hm
  | pop hp hq ih => exact ih
  | drop hp hk hx ho ih => exact ih.givenUp _ _

/-- **The request of a call** was accepted by its connection right after the call had begun. -/
theorem Reachable.requestOf_call (h : Reachable w) {x : Call} (hx : w.calls[k]? = some x) :
    ∃ params, w.journal.requestOf k = some (x.conn, .request x.id x.method params) :=
  h.path.asked k x hx

end Network

/-! ## How requests are numbered -/

namespace Journal

/-- The identifiers of the requests that a connection accepted for sending, in order. -/
def sentIds (c : Nat) (j : Journal) : List Id := (j.accepted c).filterMap Message.requestId?

/-- The ids sent later come after those sent before. -/
theorem sentIds_append (c : Nat) (es j : Journal) :
    Journal.sentIds c (es ++ j) = j.sentIds c ++ Journal.sentIds c es := by
  rw [sentIds, accepted_append, List.filterMap_append]
  rfl

end Journal

namespace Connection

open Network (firstIds firstIds_succ firstIds_nodup)

variable {c : Nat} {x y : Connection} {es : List Event} {j : Journal}

/-- A message that is no request has no id to send. -/
theorem sentIds_offered (x : Connection) {m : Message} (hm : m.requestId? = none) :
    Journal.sentIds c (x.offered c m) = [] := by
  rcases x.offer_cases c m with ⟨l, -, -, he, -⟩ | ⟨-, he, -⟩
  · rw [he]
    simp [Journal.sentIds, Journal.accepted, hm]
  · rw [he]
    rfl

/-- A cancellation is no request of its own. -/
theorem sentIds_forgot (x : Connection) (id : Id) : Journal.sentIds c (x.forgot c id) = [] := by
  rcases x.forget_cases c id with ⟨l, k, y, -, -, -, he, -⟩ | ⟨-, he, -⟩
  · rw [he]
    exact y.sentIds_offered rfl
  · rw [he]
    rfl

/-- The requests that a connection has accepted have the first identifiers, in order, and its
counter stands behind them. -/
structure Numbered (c : Nat) (x : Connection) (j : Journal) : Prop where
  ids : j.sentIds c = firstIds (j.sentIds c).length
  counter : x.counter = ⟨Int64.ofNat (j.sentIds c).length⟩

namespace Numbered

/-- Something happened, but no request was accepted. -/
theorem same (h : Numbered c x j) (hc : y.counter = x.counter)
    (he : Journal.sentIds c es = []) : Numbered c y (es ++ j) := by
  have hids : Journal.sentIds c (es ++ j) = j.sentIds c := by
    rw [Journal.sentIds_append, he, List.append_nil]
  constructor
  · rw [hids]
    exact h.ids
  · rw [hids, hc]
    exact h.counter

/-- Every move of a connection keeps its ids in order. -/
theorem step (hS : Sound c x j) (h : Numbered c x j) (hm : ConnMove c x es y) :
    Numbered c y (es ++ j) := by
  cases hm with
  | elsewhere e he =>
    refine h.same rfl ?_
    rw [Journal.sentIds, Journal.accepted_elsewhere he]
    rfl
  | turn ht =>
    refine h.same ht.table.2 ?_
    cases ht <;> rfl
  | start hp d =>
    have hl := (hS.unused_of_disconnected hp).link
    refine h.same ?_ rfl
    simp [Connection.start, Connection.counter, hl]
  | notify method params => exact h.same (x.counter_offer _) (x.sentIds_offered rfl)
  | @call l l' id k method params hl hs =>
    obtain ⟨-, hid, rfl⟩ := Link.start_eq_some hs
    have hcount : l.counter = ⟨Int64.ofNat (j.sentIds c).length⟩ := by
      rw [← Connection.counter_of_link hl, h.counter]
    -- The only move that takes a number.
    have hids : Journal.sentIds c ([.accepted c (.request id method params), .started k] ++ j) =
        j.sentIds c ++ [id] := by
      rw [Journal.sentIds_append]
      simp [Journal.sentIds, Journal.accepted, Message.requestId?]
    constructor
    · rw [hids, List.length_append, List.length_singleton, firstIds_succ, ← h.ids, hid, hcount]
      rfl
    · rw [hids, List.length_append, List.length_singleton, Connection.counter_of_link rfl,
        Int64.ofNat_add]
      simp only [hcount, Counter.next]
      rfl
  | forget id => exact h.same (x.counter_forget id) (x.sentIds_forgot id)
  | answer hr hl ha =>
    obtain ⟨-, rfl⟩ := Link.answer_eq_some ha
    refine h.same ?_ rfl
    rw [Connection.counter_of_link hl, Connection.counter_of_link rfl]
  | strand hl ha =>
    obtain ⟨-, rfl⟩ := Link.answer_eq_some ha
    refine h.same ?_ rfl
    rw [Connection.counter_of_link hl, Connection.counter_of_link rfl]
  | receive | spawn | serve | finish => exact h.same rfl rfl
  | refuse hr =>
    refine h.same (x.counter_offer _) ?_
    rw [Journal.sentIds_append, x.sentIds_offered rfl]
    rfl
  | reply r id outcome =>
    refine h.same (x.counter_offer _) ?_
    rw [Journal.sentIds_append, x.sentIds_offered (by cases outcome <;> rfl)]
    rfl
  | cut hp flush =>
    refine h.same ?_ rfl
    cases hl : x.link <;> simp [Connection.counter, Connection.cut, hl, Link.close]

/-- A fresh connection has sent no request. -/
theorem of_isFresh (h : x.IsFresh) (hj : ∀ e ∈ j, e.concerns c = false) : Numbered c x j := by
  obtain ⟨config, stream, rfl⟩ := h
  have hids : j.sentIds c = [] := by
    rw [Journal.sentIds, Journal.accepted_eq_nil hj, List.filterMap_nil]
  constructor
  · rw [hids]
    rfl
  · rw [hids]
    rfl

end Numbered

end Connection

namespace Network

variable {w : Network} {c : Nat}

/-- The ids of the requests sent are in order in every network that can be reached. -/
theorem Reachable.numbered (h : Reachable w) : w.Each Connection.Numbered := by
  have hall : w.Each fun c x j => Connection.Sound c x j ∧ Connection.Numbered c x j :=
    h.each (fun hx hj => ⟨.unused (hx.unused hj), .of_isFresh hx hj⟩)
      fun hN hm => ⟨hN.1.step hm, hN.2.step hN.1 hm⟩
  exact ⟨fun c x hx => (hall.conn c x hx).2, hall.other⟩

/-- No two requests of a connection have the same identifier, unless all of them were given. -/
theorem Reachable.nodup_sentIds (h : Reachable w)
    (hn : (w.journal.accepted c).countP Message.isRequest ≤ UInt64.size) :
    (w.journal.sentIds c).Nodup := by
  cases hx : w.conns[c]? with
  | none =>
    rw [Journal.sentIds, Journal.accepted_eq_nil (h.sound.other c hx), List.filterMap_nil]
    exact List.nodup_nil
  | some x =>
    have hlen : (w.journal.sentIds c).length = (w.journal.accepted c).countP Message.isRequest := by
      rw [Journal.sentIds, List.length_filterMap_eq_countP]
      refine List.countP_congr fun m _ => ?_
      cases m <;> simp [Message.requestId?, Message.isRequest]
    rw [(h.numbered.conn c x hx).ids]
    exact firstIds_nodup (by rw [hlen]; exact hn)

/-- **A request is the only one under its identifier** that its connection has accepted, unless all
identifiers were given. -/
theorem Reachable.filter_accepted (h : Reachable w)
    (hn : (w.journal.accepted c).countP Message.isRequest ≤ UInt64.size) {m : Message} {id : Id}
    (hm : m ∈ w.journal.accepted c) (hid : m.requestId? = some id) :
    (w.journal.accepted c).filter (fun m => m.requestId? = some id) = [m] := by
  have hnodup := h.nodup_sentIds hn
  rw [Journal.sentIds] at hnodup
  obtain ⟨before, after, hsplit⟩ := List.append_of_mem hm
  rw [hsplit, List.filterMap_append, List.filterMap_cons_some hid] at hnodup
  have others : ∀ ms : List Message, id ∉ ms.filterMap Message.requestId? →
      ms.filter (fun m => m.requestId? = some id) = [] := by
    intro ms hms
    refine List.filter_eq_nil_iff.mpr fun b hb hbid => hms ?_
    exact List.mem_filterMap.mpr ⟨b, hb, of_decide_eq_true hbid⟩
  obtain ⟨-, hafter, hbefore⟩ := List.nodup_append.mp hnodup
  rw [hsplit, List.filter_append, List.filter_cons_of_pos (by simpa using hid),
    others before (fun hb => hbefore id hb id List.mem_cons_self rfl),
    others after (List.nodup_cons.mp hafter).1, List.nil_append]

end Network

end Parley

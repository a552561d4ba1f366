import Parley.Proofs.Lifecycle
import Parley.Proofs.View

/-!
# What calls see of a move

Calls and the tables of the links are kept together like the two sides of a ledger: a request that
waits has an entry in the table of its link. Most moves leave both sides alone. The others are few.

- `Network.table`, `Network.counter`: the table of a connection, and its source of identifiers.
- `Event.settles`: the events that may be the fate of a call.
- `Network.Deal`: what a move changes of calls and tables.
- `Network.Move.deals`: every move is a series of these.
-/

namespace Parley

/-! ## Tables -/

namespace Connection

/-- The requests over a connection that wait for a reply, with the numbers of their calls. -/
def table (x : Connection) : List (Id × Nat) := x.link.elim [] Link.pending

/-- The source of identifiers of a connection. -/
def counter (x : Connection) : Counter := x.link.elim .new Link.counter

variable {x y : Connection} {c : Nat} {es : List Event}

theorem table_of_link {l : Link} (h : x.link = some l) : x.table = l.pending := by
  rw [table, h, Option.elim_some]

theorem counter_of_link {l : Link} (h : x.link = some l) : x.counter = l.counter := by
  rw [counter, h, Option.elim_some]

theorem map_snd_table (x : Connection) : x.table.map Prod.snd = x.waiters := by
  cases hl : x.link with
  | none => rw [table, waiters, hl, Option.elim_none, Option.elim_none, List.map_nil]
  | some l => rw [table, waiters, hl, Option.elim_some, Option.elim_some, Link.waiters]

/-- An offered message changes what is queued, not who waits. -/
theorem table_offer (x : Connection) (m : Message) : (x.offer m).table = x.table := by
  rcases x.offer_cases 0 m with ⟨l, hl, -, -, hx⟩ | ⟨-, -, hx⟩
  · rw [hx, table_of_link hl, table_of_link rfl]
  · rw [hx]

theorem counter_offer (x : Connection) (m : Message) : (x.offer m).counter = x.counter := by
  rcases x.offer_cases 0 m with ⟨l, hl, -, -, hx⟩ | ⟨-, -, hx⟩
  · rw [hx, counter_of_link hl, counter_of_link rfl]
  · rw [hx]

/-- A request that is forgotten leaves the table, and only that one does. -/
theorem table_forget (x : Connection) (id : Id) :
    (x.forget id).table = Link.without id x.table := by
  rcases x.forget_cases 0 id with ⟨l, k, y, hl, -, rfl, -, hx⟩ | ⟨hn, -, hx⟩
  · rw [hx, table_offer, table_of_link hl, table_of_link rfl]
  · rw [hx]
    cases hl : x.link with
    | none => simp [table, hl, Link.without]
    | some l =>
      have hp := hn l hl
      rw [List.lookup_eq_none_iff] at hp
      rw [table_of_link hl, Link.without, List.filter_eq_self.mpr]
      intro p hm
      simpa [bne, BEq.comm] using hp p hm

theorem counter_forget (x : Connection) (id : Id) : (x.forget id).counter = x.counter := by
  rcases x.forget_cases 0 id with ⟨l, k, y, hl, -, rfl, -, hx⟩ | ⟨-, -, hx⟩
  · rw [hx, counter_offer, counter_of_link hl, counter_of_link rfl]
  · rw [hx]

/-- A writing loop that stops leaves the table to the dispatch loop. -/
theorem table_stopWriting (x : Connection) :
    x.stopWriting.table = x.table ∧ x.stopWriting.counter = x.counter := by
  cases hl : x.link <;> simp [stopWriting, table, counter, hl]

/-- The loops leave the table alone. -/
theorem Turn.table (h : x.Turn c es y) : y.table = x.table ∧ y.counter = x.counter := by
  cases h with
  | beginFrame ha hw hl hq =>
    rw [table_of_link hl, counter_of_link hl]
    exact ⟨rfl, rfl⟩
  | stopAborted | stopDrained | stopBroken => exact x.table_stopWriting
  | _ => exact ⟨rfl, rfl⟩

end Connection

/-! ## Events -/

/-- Whether an event may be the fate of a call. -/
def Event.settles : Event → Bool
  | .received _ (.reply _) | .cut _ _ | .started _ | .ended _ _ | .dropped _ | .stranded _ => true
  | _ => false

namespace Connection

variable {x y : Connection} {c : Nat} {es : List Event} {e : Event}

/-- What a connection accepts settles no call. -/
theorem settles_offered {m : Message} (h : e ∈ x.offered c m) : e.settles = false := by
  obtain rfl := mem_offered h
  rfl

theorem settles_forgot {id : Id} (h : e ∈ x.forgot c id) : e.settles = false := by
  obtain rfl := mem_forgot h
  rfl

/-- No turn of a loop settles a call by itself, whatever it writes down. -/
theorem Turn.settles (h : x.Turn c es y) (he : e ∈ es) : e.settles = false := by
  obtain ⟨bs, rfl⟩ | rfl := h.mem he
  · rfl
  · rfl

end Connection

namespace Network

/-- The requests over a connection that wait for a reply, with the numbers of their calls. -/
def table (w : Network) (c : Nat) : List (Id × Nat) := (w.conns[c]?).elim [] Connection.table

/-- The source of identifiers of a connection. -/
def counter (w : Network) (c : Nat) : Counter := (w.conns[c]?).elim .new Connection.counter

section table

variable {w w' : Network} {c : Nat} {x y : Connection}

theorem table_of_conn (hx : w.conns[c]? = some x) : w.table c = x.table := by
  rw [table, hx, Option.elim_some]

theorem counter_of_conn (hx : w.conns[c]? = some x) : w.counter c = x.counter := by
  rw [counter, hx, Option.elim_some]

/-- Only the changed connection has another table. -/
theorem table_of_set (hx : w.conns[c]? = some x) (hc : w'.conns = w.conns.set c y) (d : Nat) :
    w'.table d = if c = d then y.table else w.table d := by
  rw [table, table, hc, List.getElem?_set]
  split
  · next h =>
    subst h
    rw [if_pos (List.getElem?_eq_some_iff.mp hx).1, Option.elim_some]
  · rfl

/-- Only the changed connection counts on. -/
theorem counter_of_set (hx : w.conns[c]? = some x) (hc : w'.conns = w.conns.set c y) (d : Nat) :
    w'.counter d = if c = d then y.counter else w.counter d := by
  rw [counter, counter, hc, List.getElem?_set]
  split
  · next h =>
    subst h
    rw [if_pos (List.getElem?_eq_some_iff.mp hx).1, Option.elim_some]
  · rfl

/-- What leaves the table of one connection alone leaves all tables alone. -/
theorem tables_of_set (hx : w.conns[c]? = some x) (hc : w'.conns = w.conns.set c y)
    (ht : y.table = x.table ∧ y.counter = x.counter) :
    w'.table = w.table ∧ w'.counter = w.counter := by
  constructor
  · funext d
    rw [table_of_set hx hc]
    split
    · next h => rw [ht.1, ← h, table_of_conn hx]
    · rfl
  · funext d
    rw [counter_of_set hx hc]
    split
    · next h => rw [ht.2, ← h, counter_of_conn hx]
    · rfl

/-- What a connection is given to send is not a request of its own, so nobody waits for it. -/
theorem tables_enqueue (w : Network) (c : Nat) (m : Message) :
    (w.enqueue c m).table = w.table ∧ (w.enqueue c m).counter = w.counter := by
  cases hx : w.conns[c]? with
  | none =>
    have hc : (w.enqueue c m).conns = w.conns := modify_eq_of_none hx _
    exact ⟨by funext d; rw [table, hc, table], by funext d; rw [counter, hc, counter]⟩
  | some x =>
    exact tables_of_set hx (modify_eq_set hx _) ⟨x.table_offer m, x.counter_offer m⟩

/-- A withdrawal takes one entry, out of one table. -/
theorem table_withdraw (w : Network) (c : Nat) (id : Id) (d : Nat) :
    (w.withdraw c id).table d = if c = d then Link.without id (w.table d) else w.table d := by
  cases hx : w.conns[c]? with
  | none =>
    have hc : (w.withdraw c id).conns = w.conns := modify_eq_of_none hx _
    rw [table, hc, ← table]
    split
    · next h => rw [table, ← h, hx, Option.elim_none, Link.without, List.filter_nil]
    · rfl
  | some x =>
    rw [table_of_set hx (modify_eq_set hx _), x.table_forget]
    split
    · next h => rw [← h, table_of_conn hx]
    · rfl

/-- Withdrawing a request gives no id back. -/
theorem counter_withdraw (w : Network) (c : Nat) (id : Id) :
    (w.withdraw c id).counter = w.counter := by
  funext d
  cases hx : w.conns[c]? with
  | none =>
    have hc : (w.withdraw c id).conns = w.conns := modify_eq_of_none hx _
    rw [counter, hc, counter]
  | some x =>
    rw [counter_of_set hx (modify_eq_set hx _), x.counter_forget]
    split
    · next h => rw [← h, counter_of_conn hx]
    · rfl

/-- A connection that was just made has an empty table. -/
theorem tables_openConns (w : Network) {xs : List Connection} (hx : ∀ x ∈ xs, x.IsFresh) :
    ({ w with conns := w.conns ++ xs } : Network).table = w.table ∧
      ({ w with conns := w.conns ++ xs } : Network).counter = w.counter := by
  -- A number that has no connection yet has the empty table and counts from nothing, which is what
  -- a fresh connection has.
  have hd : ∀ d : Nat, (w.conns ++ xs)[d]? = w.conns[d]? ∨
      (w.conns[d]? = none ∧ ∃ y : Connection, (w.conns ++ xs)[d]? = some y ∧ y.IsFresh) := by
    intro d
    rcases Nat.lt_or_ge d w.conns.length with hd | hd
    · exact .inl (List.getElem?_append_left hd)
    · rw [List.getElem?_append_right hd, List.getElem?_eq_none hd]
      cases hy : xs[d - w.conns.length]? with
      | none => exact .inl rfl
      | some y => exact .inr ⟨rfl, y, rfl, hx y (List.mem_of_getElem? hy)⟩
  constructor
  · funext d
    rw [table, table]
    rcases hd d with h | ⟨hn, y, hy, config, stream, rfl⟩
    · rw [h]
    · rw [hn, hy]
      rfl
  · funext d
    rw [counter, counter]
    rcases hd d with h | ⟨hn, y, hy, config, stream, rfl⟩
    · rw [h]
    · rw [hn, hy]
      rfl

/-- A withdrawal may be followed by a cancellation on the wire, which settles nothing. -/
theorem settles_withdraw (w : Network) (c : Nat) (id : Id) :
    ∃ es, (w.withdraw c id).journal = es ++ w.journal ∧ ∀ e ∈ es, e.settles = false := by
  refine ⟨_, rfl, fun e he => ?_⟩
  cases hx : w.conns[c]? with
  | none => simp [hx] at he
  | some x =>
    rw [hx, Option.elim_some] at he
    exact Connection.settles_forgot he

theorem settles_enqueue (w : Network) (c : Nat) (m : Message) :
    ∃ es, (w.enqueue c m).journal = es ++ w.journal ∧ ∀ e ∈ es, e.settles = false := by
  refine ⟨_, rfl, fun e he => ?_⟩
  cases hx : w.conns[c]? with
  | none => simp [hx] at he
  | some x =>
    rw [hx, Option.elim_some] at he
    exact Connection.settles_offered he

end table

/-! ## What a move changes -/

/-- Why the entry of a call is taken out of a table, what its call comes to, and what is noted. -/
inductive Removal (w : Network) (c k : Nat) : Id → CallState → Event → Prop where
  | answer (r : Reply) : Removal w c k r.id (.answered r) (.received c (.reply r))
  | strand {id : Id} (hr : w.Repeats c k id) : Removal w c k id .closed (.stranded k)

/-- What a move changes of calls and tables. -/
inductive Deal (w : Network) : Network → Prop where
  /-- Nothing, but time may pass. -/
  | quiet {w' : Network} {es : List Event} (hc : w'.calls = w.calls)
      (ht : w'.table = w.table ∧ w'.counter = w.counter) (hk : w.clock ≤ w'.clock)
      (hj : w'.journal = es ++ w.journal) (he : ∀ e ∈ es, e.settles = false) : Deal w w'
  /-- A reply comes in that no request waits for. -/
  | stray {c : Nat} {x : Connection} {r : Reply} (hx : w.conns[c]? = some x)
      (hl : x.table.lookup r.id = none) : Deal w (w.emit (.received c (.reply r)))
  | begin {l l' : Link} {x : Call} {params : Json} (hl : w.link? x.conn = some l)
      (hs : l.start w.calls.length x.method params = some (x.id, l'))
      (hn : l.pending.lookup x.id = none) (hx : x.state = .waiting)
      (ht : x.deadline = w.deadline x.conn) : Deal w (w.begun x l' params)
  | learn {k : Nat} {x : Call} {r : Reply} (hk : w.calls[k]? = some x)
      (hx : x.state = .answered r) : Deal w (w.endCall k (x.outcomeOf r))
  | lose {k : Nat} {x : Call} (hk : w.calls[k]? = some x) (hx : x.state = .closed) :
      Deal w (w.endCall k (.error .connectionClosed))
  | expire {k : Nat} {x : Call} (hk : w.calls[k]? = some x) (hx : x.state = .waiting)
      (hd : x.isOverdue w.clock = true) (ho : w.Owns k x.conn x.id) : Deal w (w.expired k x)
  | drop {k : Nat} {x : Call} (hk : w.calls[k]? = some x) (hx : x.isOver = false)
      (ho : w.Owns k x.conn x.id) : Deal w (w.givenUp k x)
  | remove {c k : Nat} {x : Connection} {id : Id} {l l' : Link} {s : CallState} {e : Event}
      (hx : w.conns[c]? = some x) (hl : x.link = some l) (ha : l.answer id = some (k, l'))
      (hr : w.Removal c k id s e) :
      Deal w { w with
        conns := w.conns.set c { x with link := some l' }
        calls := w.calls.modify k (·.resolve s)
        journal := e :: w.journal }
  | cut {c : Nat} {x : Connection} (flush : Bool) (hx : w.conns[c]? = some x) :
      Deal w (w.severed c x flush)

/-- A series of these. -/
inductive Deals : Network → Network → Prop where
  | refl (w : Network) : Deals w w
  | tail {u v w : Network} (h : Deals u v) (hd : Deal v w) : Deals u w

namespace Deals

variable {u v w : Network}

theorem single (h : Deal u v) : Deals u v := .tail (.refl u) h

/-- What every deal keeps, a row of deals keeps. -/
theorem keeps {P : Network → Prop} (h : Deals u v) (step : ∀ {w w'}, P w → Deal w w' → P w')
    (hP : P u) : P v := by
  induction h with
  | refl => exact hP
  | tail _ hd ih => exact step ih hd

end Deals

section moves

variable {w w' : Network}

/-- What leaves calls and connections alone. -/
theorem Deal.aside (es : List Event) (hc : w'.calls = w.calls) (hx : w'.conns = w.conns)
    (hk : w.clock ≤ w'.clock) (hj : w'.journal = es ++ w.journal)
    (he : ∀ e ∈ es, e.settles = false) : Deal w w' :=
  .quiet hc ⟨by funext d; rw [table, hx, table], by funext d; rw [counter, hx, counter]⟩ hk hj he

/-- What leaves calls, connections and the journal alone. -/
theorem Deal.idle (hc : w'.calls = w.calls) (hx : w'.conns = w.conns) (hk : w.clock ≤ w'.clock)
    (hj : w'.journal = w.journal) : Deal w w' :=
  .aside [] hc hx hk hj (by simp)

/-- For the tables, accepting a message is no event. -/
theorem Deal.enqueue (w : Network) (c : Nat) (m : Message) : Deal w (w.enqueue c m) := by
  obtain ⟨es, hj, he⟩ := settles_enqueue w c m
  exact .quiet rfl (tables_enqueue w c m) (Nat.le_refl _) hj he

/-- A message that no call waits for comes in: if it is a reply, it has no entry. -/
theorem Deal.receive {c d : Nat} {x : Connection} {m : Message} (hx : w.conns[c]? = some x)
    (hm : ∀ id method params, m ≠ .request id method params)
    (ha : ∀ r l, m = .reply r → x.link = some l → l.pending.lookup r.id = none) :
    Deal w ((w.heed d m).emit (.received c m)) := by
  cases m with
  | reply r =>
    rw [heed_reply]
    refine .stray hx ?_
    cases hl : x.link with
    | none => simp [Connection.table, hl]
    | some l => exact (Connection.table_of_link hl).symm ▸ ha r l rfl hl
  | request id method params => exact absurd rfl (hm id method params)
  | _ => exact .aside [_] rfl rfl (Nat.le_refl _) rfl (by simp [Event.settles])

/-- A run that ends sends a reply at most, and that is nothing to the tables. -/
theorem Deal.concluded (w : Network) (r : Nat) (y : Run) (outcome : Except Failure Json) :
    Deals w (w.concluded r y outcome) := by
  have h1 : Deals w ((w.modifyRun r fun y => { y with stage := .finished outcome }).emit
      (.finished r y.conn y.id outcome)) :=
    .single (.aside [.finished r y.conn y.id outcome] rfl rfl (Nat.le_refl _) rfl
      (by simp [Event.settles]))
  cases hi : y.id with
  | none =>
    rw [Network.concluded, hi]
    rw [hi] at h1
    exact h1
  | some id =>
    rw [Network.concluded, hi]
    rw [hi] at h1
    have h2 := h1.tail (w := ((w.modifyRun r fun y => { y with stage := .finished outcome }).emit
      (.finished r y.conn (some id) outcome)).modifyDispatcher y.dispatcher fun d => d.leave id)
      (.idle rfl rfl (Nat.le_refl _) rfl)
    exact h2.tail (.enqueue _ _ _)

/-- Every move is a series of these. -/
theorem Move.deals (hS : w.Each Connection.Sound) (h : Move w w') : Deals w w' := by
  have h0 : ∀ e ∈ ([] : List Event), e.settles = false := by simp
  cases h with
  | rouse hq => exact .single (.idle rfl rfl (Nat.le_refl _) rfl)
  | remark e he =>
    refine .single (.aside [e] rfl rfl (Nat.le_refl _) rfl fun e' hm => ?_)
    obtain rfl := List.mem_singleton.mp hm
    cases e' <;> first | rfl | cases he
  | openConns hx =>
    exact .single (.quiet rfl (tables_openConns w hx) (Nat.le_refl _) rfl h0)
  | surroundings | openDispatcher | arrange | register | wait =>
    exact .single (.idle rfl rfl (Nat.le_refl _) rfl)
  | advance ht => exact .single (.idle rfl rfl ht rfl)
  | turn hx ht =>
    exact .single (.quiet rfl (tables_of_set hx rfl ht.table) (Nat.le_refl _) rfl
      fun e he => ht.settles he)
  | @connect c x d hx hp hd =>
    -- A link that is new has neither entries nor identifiers that were given.
    have hl := ((hS.conn c x hx).unused_of_disconnected hp).link
    refine .single (.quiet rfl (tables_of_set hx (modify_eq_set hx _) ?_) (Nat.le_refl _) rfl h0)
    simp [Connection.start, Connection.table, Connection.counter, hl]
  | notify c method params => exact .single (.enqueue w c _)
  | call hl hs hn hx hw ht hd => exact .single (.begin hl hs hn hx ht)
  | forward hl hs hn hx hw ht hd =>
    exact (Deals.single (.begin hl hs hn hx ht)).tail (.idle rfl rfl (Nat.le_refl _) rfl)
  | callLate hl hs hn hx ht hd =>
    -- The time of the call is over as soon as it has begun.
    exact (Deals.single (.begin hl hs hn hx ht)).tail
      (.expire (by simp [begun]) hx hd (owns_begun hl hs))
  | learn hk hx => exact .single (.learn hk hx)
  | lose hk hx => exact .single (.lose hk hx)
  | expire hk hx hd ho => exact .single (.expire hk hx hd ho)
  | @answer c k x r l l' q hx hr hl ha hq hw =>
    exact (Deals.single (.remove hx hl ha (.answer r))).tail (.idle rfl rfl (Nat.le_refl _) rfl)
  | strand hx hl ha hr hq hw =>
    exact (Deals.single (.remove hx hl ha (.strand hr))).tail (.idle rfl rfl (Nat.le_refl _) rfl)
  | receive hx hr hd hm ha => exact .single (.receive hx hm ha)
  | @spawn c x y =>
    exact .single (.aside [.spawned w.runs.length c y.message] rfl rfl (Nat.le_refl _) rfl
      (by simp [Event.settles]))
  | @serve c x y d id hx hr hd hd' hh hc hi =>
    have hm : y.message = .request id y.method y.params := by simp [Run.message, hi]
    exact .single (.aside
      [.spawned w.runs.length c y.message, .received c y.message] rfl rfl (Nat.le_refl _) rfl
      (by simp [hm, Event.settles]))
  | @refuse c d x id method params =>
    have h1 : Deals w ((w.emit (.received c (.request id method params))).emit
        (.unserved c id method params)) :=
      .single (.aside [.unserved c id method params, .received c (.request id method params)] rfl
        rfl (Nat.le_refl _) rfl (by simp [Event.settles]))
    exact h1.tail (.enqueue _ _ _)
  | finish => exact Deal.concluded w _ _ _
  | cut flush hx =>
    exact (Deals.single (.cut flush hx)).tail (.idle rfl rfl (Nat.le_refl _) rfl)

end moves

end Network

end Parley

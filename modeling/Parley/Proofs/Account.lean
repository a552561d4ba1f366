import Parley.Proofs.Abandoned
import Parley.Proofs.Running

/-!
# Calls that are given up

A call is looked after by whoever waits for it: he looks whether it is over, or drops it. Either way
the request is taken back if the call is still pending, and then exactly one cancellation goes out;
the account of the network is kept.

- `Network.abandon_of_present`, `Network.abandon_of_absent`: what becomes of an identifier.
- `Network.Waits`: what is known of a call that is pending; `Network.Path.pending_iff`.
- `Network.Waits.dropCall`, `Network.Waits.checkCall`: what happens when it is given up.
- `Network.Accounted.checkCall`, `Network.Accounted.dropCall`: the account is kept.
-/

namespace Parley.Network

variable {w w' : Network} {k c n : Nat} {id : Id} {x : Call} {l : Link}
  {said : List (Nat × Message)}

/-! ## Requests that are taken back -/

/-- An open link takes every message. -/
theorem sendOn_of_open (hl : w.link? c = some l) (ho : l.isOpen = true) (m : Message) :
    ∃ v, w.sendOn c m = some v ∧ v.journal = .accepted c m :: w.journal ∧ v.keys = w.keys := by
  let l' : Link := { l with queue := l.queue ++ [.message m] }
  have hs : l.send m = some l' := if_pos ho
  have hv : w.sendOn c m = some (((w.setLink c l').emit (.accepted c m)).wakeIdleWriter c) := by
    rw [sendOn, hl, Option.bind_some, hs, Option.map_some]
  obtain ⟨q, -, hq⟩ := roused_wakeIdleWriter ((w.setLink c l').emit (.accepted c m)) c
  rw [hq] at hv
  exact ⟨_, hv, rfl, rfl⟩

/-- Nobody waits under an identifier. -/
theorem abandon_of_absent (h : ∀ l, w.link? c = some l → l.pending.lookup id = none) :
    w.abandon k c id = w := by
  have hb : (w.link? c).bind (fun l => l.answer id) = none := by
    cases hl : w.link? c with
    | none => rfl
    | some l => rw [Option.bind_some, Link.answer, h l hl, Option.map_none]
  rw [abandon, hb]

/-- A call waits under an identifier: its request is taken back, and it loses the identifier if it
is another call that does this. -/
theorem abandon_of_present (hl : w.link? c = some l) (ho : l.isOpen = true)
    (hn : l.pending.lookup id = some n) :
    (w.abandon k c id).keys = w.keys ∧ (w.abandon k c id).journal =
      .accepted c (cancelMessage id) ::
        if n = k then w.journal else .stranded n :: w.journal := by
  have ha : l.answer id = some (n, { l with pending := Link.without id l.pending }) := by
    rw [Link.answer, hn, Option.map_some]
  have hset : (w.setLink c { l with pending := Link.without id l.pending }).link? c =
      some { l with pending := Link.without id l.pending } := by
    obtain ⟨x, hx, -⟩ := link?_eq_some.mp hl
    rw [link?, setLink, getElem?_modifyConn_self, hx]
    rfl
  rw [abandon, hl, Option.bind_some, ha]
  simp only
  -- The entry is the one of the call itself, or of another call that has the identifier by now.
  by_cases hk : n = k
  · rw [if_pos hk, if_pos hk]
    obtain ⟨v, hv, hj, hkeys⟩ := sendOn_of_open hset ho (cancelMessage id)
    rw [hv]
    exact ⟨hkeys, hj⟩
  · rw [if_neg hk, if_neg hk]
    obtain ⟨q, -, hq⟩ := roused_wakeCall
      ((w.setLink c { l with pending := Link.without id l.pending }).strand n) n
    rw [hq]
    obtain ⟨v, hv, hj, hkeys⟩ := sendOn_of_open (w := { (w.setLink c
      { l with pending := Link.without id l.pending }).strand n with ready := q }) hset ho
      (cancelMessage id)
    rw [hv]
    exact ⟨hkeys.trans (keys_modify _ n w.calls (Call.key_resolve _)), hj⟩

/-! ## Calls that are looked after -/

/-- A call that waits: it is pending, it has its entry in the table of an open link, and its request
was sent. -/
structure Waits (w : Network) (k : Nat) (x : Call) : Prop where
  entry : ∃ l, w.link? x.conn = some l ∧ l.isOpen = true ∧ l.pending.lookup x.id = some k
  pending : w.fateOf k x = .pending
  request : ∃ params, .request x.id x.method params ∈ w.journal.accepted x.conn

/-- How a call stands: it waits, or something is decided about it. -/
def Stands (w : Network) (k : Nat) : Prop :=
  ∀ x, w.calls[k]? = some x →
    (x.state = .waiting → w.Waits k x) ∧ (x.state ≠ .waiting → (w.fateOf k x).isDecided = true)

/-- The link of an entry is open. -/
theorem Path.isOpen (h : Path {} w) (hl : w.link? c = some l) (hn : l.pending ≠ []) :
    l.isOpen = true := by
  obtain ⟨x, hx, hl⟩ := link?_eq_some.mp hl
  have hS := (h.each (P := Connection.Sound) (fun hx hj => .unused (hx.unused hj))
    fun hS hm => hS.step hm).conn c x hx
  cases hS with
  | unused h => cases h.link.symm.trans hl
  | live h =>
    obtain rfl := Option.some.inj (h.link.symm.trans hl)
    exact h.isOpen
  | ended h =>
    obtain rfl := Option.some.inj (h.link.symm.trans hl)
    exact absurd h.pending hn

/-- What stands in the journal of a call says how far it is, along every path. -/
theorem Path.stands (h : Path {} w) (k : Nat) : w.Stands k := by
  intro x hx
  obtain ⟨hO, hI⟩ := h.inOrder
  have hf := (hO.calls x.conn).2 k x hx rfl
  refine ⟨fun hs => ⟨?_, hf.pending_iff.mpr hs, (hI k x hx).request⟩, hf.isDecided⟩
  have hm := (hO.calls x.conn).1 k x hx rfl hs
  obtain ⟨l, hl, ht⟩ : ∃ l, w.link? x.conn = some l ∧ w.table x.conn = l.pending := by
    cases hy : w.conns[x.conn]? with
    | none => simp [table, hy] at hm
    | some y =>
      cases hl : y.link with
      | none => simp [table_of_conn hy, Connection.table, hl] at hm
      | some l =>
        refine ⟨l, link?_eq_some.mpr ⟨y, hy, hl⟩, ?_⟩
        rw [table_of_conn hy, Connection.table_of_link hl]
  have hnodup := hO.booked.nodup x.conn
  rw [ht] at hm hnodup
  exact ⟨l, hl, h.isOpen hl (List.ne_nil_of_mem hm), lookup_of_nodup_fst hnodup hm⟩

/-- Who has an entry in a table waits. -/
theorem Path.holder (h : Path {} w) (hl : w.link? c = some l) (hn : l.pending.lookup id = some n) :
    ∃ y, w.calls[n]? = some y ∧ y.conn = c ∧ y.id = id ∧ y.state = .waiting := by
  obtain ⟨z, hz, hlz⟩ := link?_eq_some.mp hl
  have ha : l.answer id = some (n, { l with pending := Link.without id l.pending }) := by
    rw [Link.answer, hn, Option.map_some]
  exact (h.inOrder.1.booked.removed hz hlz ha).2

/-- A call is pending as long as it has its entry in the table of an open link. -/
theorem Path.pending_iff (h : Path {} w) (hx : w.calls[k]? = some x) :
    w.fateOf k x = .pending ↔
      ∃ l, w.link? x.conn = some l ∧ l.isOpen = true ∧ l.pending.lookup x.id = some k := by
  obtain ⟨hO, -⟩ := h.inOrder
  have hf := (hO.calls x.conn).2 k x hx rfl
  constructor
  · exact fun hp => ((h.stands k x hx).1 (hf.pending_iff.mp hp)).entry
  · rintro ⟨l, hl, -, hn⟩
    obtain ⟨y, hy, -, -, hs⟩ := h.holder hl hn
    obtain rfl := Option.some.inj (hx.symm.trans hy)
    exact hf.pending_iff.mpr hs

/-- A call that has just begun waits. -/
theorem Path.stands_startCall {d : Nat} {method : String} {params : Json}
    {shape : Option Json.Shape} {waiter : Option Task} (h : Path {} w)
    (hs : w.startCall d method params shape waiter = .ok (k, w')) : w'.Stands k := by
  obtain ⟨u, x, l, l', hu, -, hl, hstart, -, hx, -, -, -, -, rfl, q, -, rfl⟩ := startCall_eq_ok hs
  obtain ⟨ho, -, hl'⟩ := Link.start_eq_some hstart
  have hU := (h.moves hu.moves).inOrder.1.unbegun
  intro y hy
  obtain rfl : x = y := by simpa [begun] using hy
  refine ⟨fun _ => ⟨⟨l', ?_, ?_, ?_⟩, ?_, params, ?_⟩, fun hne => absurd hx hne⟩
  · obtain ⟨z, hz, -⟩ := link?_eq_some.mp hl
    show ((u.begun x l' params).conns[x.conn]?).bind (·.link) = _
    rw [begun, getElem?_modifyConn_self, hz]
    rfl
  · rw [hl']
    exact ho
  · rw [hl']
    simp [List.lookup_append, Link.lookup_without]
  · show ((u.journal.fate _ _ _).after _ _ _ (.started _)).after _ _ _ (.accepted _ _) = _
    rw [(hU _ (Nat.le_refl _)).1]
    simp [Fate.after]
  · simp [begun, Journal.accepted]

namespace Waits

/-- The request of a call that waits is taken back with one cancellation. -/
theorem abandon (h : w.Waits k x) : (w.abandon k x.conn x.id).keys = w.keys ∧
    (w.abandon k x.conn x.id).journal = .accepted x.conn (cancelMessage x.id) :: w.journal := by
  obtain ⟨l, hl, ho, hn⟩ := h.entry
  have ha := abandon_of_present (k := k) hl ho hn
  rwa [if_pos rfl] at ha

/-- A call that waits is dropped. -/
theorem dropCall (h : w.Waits k x) (hx : w.calls[k]? = some x) (hs : x.state = .waiting) :
    (w.dropCall k).journal =
      .dropped k :: .accepted x.conn (cancelMessage x.id) :: w.journal := by
  rw [Network.dropCall, hx]
  simp only [hs]
  exact congrArg _ h.abandon.2

/-- Whoever waits for a call finds that its time is over. -/
theorem checkCall (h : w.Waits k x) (hx : w.calls[k]? = some x) (hs : x.state = .waiting)
    (hd : x.isOverdue w.clock = true) : (w.checkCall k).journal =
      .ended k (.error (.timedOut x.method)) ::
        .accepted x.conn (cancelMessage x.id) :: w.journal := by
  rw [checkCall_eq_of_overdue hx hs hd]
  exact congrArg _ h.abandon.2

end Waits

/-- The key of a call that is there. -/
theorem keys_of_call (hx : w.calls[k]? = some x) : w.keys[k]? = some (x.conn, x.id) := by
  rw [keys, List.getElem?_map, hx]
  rfl

namespace Accounted

/-- A call ends about which something was decided before. -/
theorem endCall (h : w.Accounted said) (hx : w.calls[k]? = some x)
    (hd : (w.fateOf k x).isDecided = true) (outcome : Except CallError Json) :
    (w.endCall k outcome).Accounted said :=
  h.ends (e := .ended k outcome) (keys_modify _ k w.calls fun _ => rfl) (.inr ⟨_, rfl⟩) rfl
    (keys_of_call hx) hd

/-- A call that waits ends, and its request is taken back. -/
theorem giveUp {e : Event} (h : w.Accounted said) (hx : w.calls[k]? = some x) (hw : w.Waits k x)
    (he : e = .dropped k ∨ e = .ended k (.error (.timedOut x.method)))
    (hkeys : w'.keys = (w.abandon k x.conn x.id).keys)
    (hj : w'.journal = e :: (w.abandon k x.conn x.id).journal) : w'.Accounted said := by
  obtain ⟨params, hr⟩ := hw.request
  obtain ⟨hkeys', hj'⟩ := hw.abandon
  exact h.abandons (hkeys.trans hkeys') (keys_of_call hx) hw.pending hr he (by rw [hj, hj'])

/-- Looking whether a call is over keeps the account. -/
theorem checkCall (h : w.Accounted said) (hk : w.Stands k) : (w.checkCall k).Accounted said := by
  cases hx : w.calls[k]? with
  | none =>
    rw [Network.checkCall, hx]
    exact h
  | some x =>
    obtain ⟨hwaits, hdecided⟩ := hk x hx
    cases hs : x.state with
    | waiting =>
      cases hd : x.isOverdue w.clock with
      | false =>
        rw [checkCall_of_early hx hs hd]
        exact h
      | true =>
        rw [checkCall_eq_of_overdue hx hs hd]
        -- Only here something is said: the call is late, so it is given up, and the other side is
        -- told.
        exact h.giveUp hx (hwaits hs) (.inr rfl) (keys_modify _ k _ fun _ => rfl) rfl
    -- It was decided before, so nothing more is said about it.
    | answered r =>
      rw [checkCall_of_answered hx hs]
      exact h.endCall hx (hdecided (by simp [hs])) _
    | closed =>
      rw [checkCall_of_closed hx hs]
      exact h.endCall hx (hdecided (by simp [hs])) _
    | ended o =>
      rw [checkCall_of_isOver hx (by simp [Call.isOver, hs])]
      exact h
    | dropped =>
      rw [checkCall_of_isOver hx (by simp [Call.isOver, hs])]
      exact h

/-- A call is given up about which something was decided before. If another one waits under its
identifier, that one loses it. -/
theorem giveUpLate (h : w.Accounted said) (hp : Path {} w) (hx : w.calls[k]? = some x)
    (hs : x.state ≠ .waiting) (hkeys : w'.keys = (w.abandon k x.conn x.id).keys)
    (hj : w'.journal = .dropped k :: (w.abandon k x.conn x.id).journal) : w'.Accounted said := by
  have hd := (hp.stands k x hx).2 hs
  -- The identifier may be that of another call by now, which is stranded then.
  by_cases hn : ∃ l n, w.link? x.conn = some l ∧ l.pending.lookup x.id = some n
  · obtain ⟨l, n, hl, hn⟩ := hn
    have ho : l.isOpen = true := hp.isOpen hl (by rintro he; simp [he] at hn)
    obtain ⟨z, hz, hzc, hzi, hzs⟩ := hp.holder hl hn
    have hne : n ≠ k := by
      rintro rfl
      obtain rfl := Option.some.inj (hx.symm.trans hz)
      exact hs hzs
    have hwaits := (hp.stands n z hz).1 hzs
    have hpend := hwaits.pending
    obtain ⟨params, hr⟩ := hwaits.request
    have hkey := keys_of_call hz
    rw [fateOf, hzc, hzi] at hpend
    rw [hzc, hzi] at hkey hr
    obtain ⟨hkeys', hj'⟩ := abandon_of_present (k := k) hl ho hn
    rw [if_neg hne] at hj'
    exact h.supplants (hkeys.trans hkeys') (hj.trans (by rw [hj'])) (keys_of_call hx) hd hkey hpend
      hr
  · have habsent : w.abandon k x.conn x.id = w := abandon_of_absent fun l hl =>
      Option.eq_none_iff_forall_ne_some.mpr fun n hn' => hn ⟨l, n, hl, hn'⟩
    rw [habsent] at hkeys hj
    exact h.ends hkeys (.inl rfl) hj (keys_of_call hx) hd

/-- Giving a call up keeps the account. -/
theorem dropCall (h : w.Accounted said) (hp : Path {} w) (k : Nat) :
    (w.dropCall k).Accounted said := by
  cases hx : w.calls[k]? with
  | none =>
    rw [Network.dropCall, hx]
    exact h
  | some x =>
    have hkeys : ∀ v : Network, ((v.modifyCall k fun x => { x with state := .dropped }).emit
        (.dropped k)).keys = v.keys := fun v => keys_modify _ k v.calls fun _ => rfl
    -- A call that is decided, but whose waiter was not told yet.
    have hlate : x.state ≠ .waiting → (((w.abandon k x.conn x.id).modifyCall k
        fun x => { x with state := .dropped }).emit (.dropped k)).Accounted said :=
      fun hs => h.giveUpLate hp hx hs (hkeys _) rfl
    rw [Network.dropCall, hx]
    cases hs : x.state with
    | waiting =>
      simp only [hs]
      exact h.giveUp hx ((hp.stands k x hx).1 hs) (.inl rfl) (hkeys _) rfl
    | answered r =>
      simp only [hs]
      exact hlate (by simp [hs])
    | closed =>
      simp only [hs]
      exact hlate (by simp [hs])
    | ended o =>
      simp only [hs]
      exact h
    | dropped =>
      simp only [hs]
      exact h

end Accounted

end Parley.Network

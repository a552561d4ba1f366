import Parley.Proofs.View

/-!
# What goes out, as moves

Sending a message, beginning a call and looking after it are moves, and tasks that are woken.

- `Network.Roused`: nothing has changed but that tasks were put at the end of the queue.
- `Network.Aside`: moves that leave the runs, the calls and the loops alone.
- `Network.startCall_eq_ok`: how a call begins.
- `Network.moves_checkCall`, `Network.moves_call`: calls, as moves.
- `Network.dropCall_cases`: how a call is given up.
-/

namespace Parley.Network

/-! ## Tasks that are woken -/

/-- Tasks were put at the end of the queue, and nothing else has changed. -/
def Roused (w w' : Network) : Prop := ∃ q, w.ready <+: q ∧ w' = { w with ready := q }

namespace Roused

variable {u v w : Network}

theorem refl (w : Network) : Roused w w := ⟨w.ready, List.prefix_rfl, rfl⟩

theorem trans (h : Roused u v) (h' : Roused v w) : Roused u w := by
  obtain ⟨p, hp, rfl⟩ := h
  obtain ⟨q, hq, rfl⟩ := h'
  exact ⟨q, hp.trans hq, rfl⟩

/-- Waking somebody is no move at all. -/
theorem moves (h : Roused u v) : Moves u v := by
  obtain ⟨q, hq, rfl⟩ := h
  exact .single (.rouse hq)

theorem ready (h : Roused u v) : u.ready <+: v.ready := by
  obtain ⟨q, hq, rfl⟩ := h
  exact hq

/-- What does not look at the queue may as well come first. -/
theorem map {f : Network → Network} (hf : ∀ w q, f { w with ready := q } = { f w with ready := q })
    (h : Roused u v) : Roused (f u) (f v) := by
  obtain ⟨q, hq, rfl⟩ := h
  refine ⟨q, ?_, hf u q⟩
  have hr : (f u).ready = u.ready := by
    have h := congrArg (·.ready) (hf u u.ready)
    exact h
  rwa [hr]

/-- Something was done for each entry of a list, and each time it only woke tasks. -/
theorem foldl {α : Type} {f : Network → α → Network} (hf : ∀ w a, Roused w (f w a)) (w : Network)
    (l : List α) : Roused w (l.foldl f w) := by
  induction l generalizing w with
  | nil => exact .refl w
  | cons a l ih => exact (hf w a).trans (ih _)

end Roused

theorem Moves.roused {u v w : Network} (h : Moves u v) (h' : Roused v w) : Moves u w :=
  h.trans h'.moves

section wake

variable (w : Network)

/-- A task that is woken is in the queue, and nothing else has changed. -/
theorem roused_wake (t : Task) : Roused w (w.wake t) := by
  refine ⟨_, ?_, wake_eq w t⟩
  rw [wake]
  split
  · exact List.prefix_rfl
  · exact List.prefix_append _ _

/-- A task that was woken stands in the queue. -/
theorem mem_wake (t : Task) : t ∈ (w.wake t).ready := by
  rw [wake]
  split
  · next h => simpa using h
  · simp

theorem roused_wakeReader (c : Nat) : Roused w (w.wakeReader c) := by
  rw [wakeReader]
  split
  · exact roused_wake w _
  · exact .refl w

theorem roused_wakeIdleWriter (c : Nat) : Roused w (w.wakeIdleWriter c) := by
  rw [wakeIdleWriter]
  split
  · exact roused_wake w _
  · exact .refl w

theorem roused_wakeBusyWriter (c : Nat) : Roused w (w.wakeBusyWriter c) := by
  rw [wakeBusyWriter]
  split
  · exact roused_wake w _
  · exact .refl w

end wake

/-! ## Moves that leave runs, calls and loops alone -/

/-- What the connections are, apart from their links. -/
def loops (w : Network) : List Connection := w.conns.map fun x => { x with link := none }

/-- What changes of a connection without its link leaves the loops alone. -/
theorem loops_modifyConn {w : Network} {c : Nat} {f : Connection → Connection}
    (hf : ∀ x, { f x with link := none } = { x with link := none }) :
    (w.modifyConn c f).loops = w.loops := by
  refine List.ext_getElem? fun i => ?_
  simp only [loops, modifyConn, List.getElem?_map, List.getElem?_modify]
  cases w.conns[i]? with
  | none => rfl
  | some x =>
    by_cases h : c = i
    · simp [h, hf]
    · simp [h]

/-- What leaves the loops alone changes no more of a connection than its link. -/
theorem getElem?_of_loops {w w' : Network} (h : w'.loops = w.loops) {c : Nat} {x : Connection}
    (hx : w.conns[c]? = some x) : ∃ l, w'.conns[c]? = some { x with link := l } := by
  have hc : w'.loops[c]? = w.loops[c]? := by rw [h]
  simp only [loops, List.getElem?_map, hx, Option.map_some] at hc
  obtain ⟨y, hy, he⟩ := Option.map_eq_some_iff.mp hc
  refine ⟨y.link, ?_⟩
  have hy' : y = { ({ y with link := none } : Connection) with link := y.link } := rfl
  rw [he] at hy'
  rw [hy, hy']

/-- Moves that leave the runs, the calls and the loops alone. -/
structure Aside (w w' : Network) : Prop where
  moves : Moves w w'
  runs : w'.runs = w.runs
  calls : w'.calls = w.calls
  loops : w'.loops = w.loops

namespace Aside

variable {u v w : Network}

theorem refl (w : Network) : Aside w w := ⟨.refl w, rfl, rfl, rfl⟩

theorem trans (h : Aside u v) (h' : Aside v w) : Aside u w :=
  ⟨h.moves.trans h'.moves, h'.runs.trans h.runs, h'.calls.trans h.calls, h'.loops.trans h.loops⟩

theorem roused (h : Aside u v) (h' : Roused v w) : Aside u w := by
  refine h.trans ⟨h'.moves, ?_, ?_, ?_⟩ <;> obtain ⟨q, -, rfl⟩ := h' <;> rfl

theorem foldl {α : Type} {f : Network → α → Network} (hf : ∀ w a, Aside w (f w a)) (w : Network)
    (l : List α) : Aside w (l.foldl f w) := by
  induction l generalizing w with
  | nil => exact .refl w
  | cons a l ih => exact (hf w a).trans (ih _)

end Aside

/-- A remark in the journal changes nothing else. -/
theorem aside_remark (w : Network) {e : Event} (he : e.isRemark = true) : Aside w (w.emit e) :=
  ⟨.single (.remark e he), rfl, rfl, rfl⟩

theorem aside_log (w : Network) (l : Log) : Aside w (w.log l) := aside_remark w rfl

theorem aside_report (w : Network) (n : Notice) : Aside w (w.report n) := aside_remark w rfl

/-! ## Messages -/

section post

variable {w : Network} {c : Nat}

/-- A connection that is open takes a message at the end of its queue. -/
theorem enqueue_of_open {x : Connection} {l : Link} (m : Message) (hx : w.conns[c]? = some x)
    (hl : x.link = some l) (ho : l.isOpen = true) :
    w.enqueue c m =
      (w.setLink c { l with queue := l.queue ++ [.message m] }).emit (.accepted c m) := by
  have hy : x.isOpen = true := by rw [Connection.isOpen_of_link hl, ho]
  rw [enqueue, setLink, modifyConn, emit, modify_eq_set hx, modify_eq_set hx, hx, Option.elim_some,
    Connection.offer_of_open m hl ho, Connection.offered_of_open c m hy]
  rfl

/-- One that is not takes none. -/
theorem enqueue_of_not_open (m : Message)
    (h : ∀ x, w.conns[c]? = some x → x.isOpen = false) : w.enqueue c m = w := by
  cases hx : w.conns[c]? with
  | none => rw [enqueue, modify_eq_of_none hx, hx, Option.elim_none, List.nil_append]
  | some x =>
    rw [enqueue, modify_eq_set hx, hx, Option.elim_some, Connection.offer_of_not_open m (h x hx),
      Connection.offered_of_not_open c m (h x hx), set_eq_self hx, List.nil_append]

/-- A message is accepted by an open link only. -/
theorem sendOn_eq_some {w' : Network} {m : Message} (h : w.sendOn c m = some w') :
    Roused (w.enqueue c m) w' := by
  obtain ⟨l', hb, rfl⟩ := Option.map_eq_some_iff.mp h
  obtain ⟨l, hw, hs⟩ := Option.bind_eq_some_iff.mp hb
  obtain ⟨x, hx, hl⟩ := link?_eq_some.mp hw
  rw [Link.send] at hs
  split at hs
  · next ho =>
    obtain rfl := Option.some.inj hs
    rw [enqueue_of_open m hx hl ho]
    exact roused_wakeIdleWriter _ c
  · cases hs

/-- A message that cannot be sent leaves everything as it is. -/
theorem sendOn_eq_none {m : Message} (h : w.sendOn c m = none) : w.enqueue c m = w := by
  refine enqueue_of_not_open m fun x hx => ?_
  cases hl : x.link with
  | none => simp [Connection.isOpen, hl]
  | some l =>
    rw [Connection.isOpen_of_link hl]
    cases ho : l.isOpen with
    | false => rfl
    | true => simp [sendOn, link?, hx, hl, Link.send, ho] at h

/-- A message is put into the queue, or nothing happens. -/
theorem roused_sendOn (w : Network) (c : Nat) (m : Message) :
    Roused (w.enqueue c m) ((w.sendOn c m).getD w) := by
  cases h : w.sendOn c m with
  | none =>
    rw [sendOn_eq_none h]
    exact .refl w
  | some w' => exact sendOn_eq_some h

/-- Taking a message is nothing to the loops. -/
theorem loops_enqueue (w : Network) (c : Nat) (m : Message) : (w.enqueue c m).loops = w.loops := by
  refine loops_modifyConn fun x => ?_
  rcases x.offer_cases c m with ⟨l, -, -, -, hx⟩ | ⟨-, -, hx⟩ <;> rw [hx]

/-- Sending a notification through a dispatcher changes one queue, and the journal. -/
theorem aside_sendVia {w' : Network} {d : Nat} {method : String} {params : Json}
    (h : w.sendVia d (.notification method params) = .ok w') : Aside w w' := by
  rw [sendVia] at h
  split at h
  · cases h
  · next w'' hs =>
    obtain rfl := Except.ok.inj h
    obtain ⟨c, -, hs⟩ := Option.bind_eq_some_iff.mp hs
    have ha : Aside w (w.enqueue c (.notification method params)) :=
      ⟨.single (.notify c method params), rfl, rfl, loops_enqueue w c _⟩
    exact ha.roused (sendOn_eq_some hs)

/-! ## Requests that are given up -/

/-- Without an entry in the table there is nothing to take back. -/
theorem withdraw_of_absent {id : Id} (h : ∀ l, w.link? c = some l → l.pending.lookup id = none) :
    w.withdraw c id = w := by
  cases hx : w.conns[c]? with
  | none => rw [withdraw, modify_eq_of_none hx, hx, Option.elim_none, List.nil_append]
  | some x =>
    rcases x.forget_cases c id with ⟨l, k, y, hl, hk, -, -, -⟩ | ⟨-, he, hf⟩
    · have hn := h l (link?_eq_some.mpr ⟨x, hx, hl⟩)
      cases hn.symm.trans hk
    · rw [withdraw, modify_eq_set hx, hx, Option.elim_some, he, hf, set_eq_self hx, List.nil_append]

/-- With one, the entry goes, and the peer is told. -/
theorem withdraw_of_present {id : Id} {k : Nat} {l l' : Link} (hl : w.link? c = some l)
    (ha : l.answer id = some (k, l')) :
    w.withdraw c id = (w.setLink c l').enqueue c (cancelMessage id) := by
  obtain ⟨x, hx, hl⟩ := link?_eq_some.mp hl
  obtain ⟨hk, rfl⟩ := Link.answer_eq_some ha
  rcases x.forget_cases c id with ⟨l₁, n, y, hl₁, -, hy, he, hf⟩ | ⟨hn, -, -⟩
  · obtain rfl := Option.some.inj (hl.symm.trans hl₁)
    have hc : (w.conns.set c y)[c]? = some y :=
      List.getElem?_set_self (List.getElem?_eq_some_iff.mp hx).1
    rw [withdraw, enqueue, setLink, modifyConn, modify_eq_set hx, modify_eq_set hx, hx, ← hy,
      modify_eq_set hc, hc, List.set_set, Option.elim_some, Option.elim_some, he, hf]
  · cases (hn l hl).symm.trans hk

/-- A message in the queue leaves the table alone. -/
theorem pending_enqueue {m : Message} {l : Link} (h : (w.enqueue c m).link? c = some l) :
    ∃ l', w.link? c = some l' ∧ l'.pending = l.pending := by
  obtain ⟨y, hy, hl⟩ := link?_eq_some.mp h
  obtain ⟨x, hx, rfl⟩ := Option.map_eq_some_iff.mp ((getElem?_modifyConn_self w c _).symm.trans hy)
  rcases x.offer_cases c m with ⟨l', hl', -, -, he⟩ | ⟨-, -, he⟩
  · rw [he] at hl
    obtain rfl := Option.some.inj hl
    exact ⟨l', link?_eq_some.mpr ⟨x, hx, hl'⟩, rfl⟩
  · rw [he] at hl
    exact ⟨l, link?_eq_some.mpr ⟨x, hx, hl⟩, rfl⟩

/-- A call gives up its own request. -/
theorem roused_abandon {k : Nat} {id : Id} (ho : w.Owns k c id) :
    Roused (w.withdraw c id) (w.abandon k c id) := by
  cases hb : (w.link? c).bind fun l => l.answer id with
  | none =>
    have hn : ∀ l, w.link? c = some l → l.pending.lookup id = none := fun l hl => by
      simpa [hl, Link.answer] using hb
    rw [withdraw_of_absent hn, abandon, hb]
    exact .refl w
  | some p =>
    obtain ⟨n, l'⟩ := p
    obtain ⟨l, hl, ha⟩ := Option.bind_eq_some_iff.mp hb
    obtain rfl := ho l n hl (Link.answer_eq_some ha).1
    rw [withdraw_of_present hl ha, abandon, hb]
    simpa using roused_sendOn (w.setLink c l') c (cancelMessage id)

/-! ## Identifiers that are given again -/

/-- Moves that leave the runs, the loops and the clock alone, and one of the calls. -/
structure Cleared (w w' : Network) (k : Nat) : Prop where
  moves : Moves w w'
  runs : w'.runs = w.runs
  loops : w'.loops = w.loops
  clock : w'.clock = w.clock
  length : w'.calls.length = w.calls.length
  call : w'.calls[k]? = w.calls[k]?

theorem Cleared.refl (w : Network) (k : Nat) : Cleared w w k := ⟨.refl w, rfl, rfl, rfl, rfl, rfl⟩

theorem roused_wakeCall (w : Network) (k : Nat) : Roused w (w.wakeCall k) := by
  rw [wakeCall]
  cases w.calls[k]? with
  | none => exact .refl w
  | some x => exact roused_wake w _

/-- Waking a call wakes whoever waits for it. -/
theorem mem_wakeCall {k : Nat} {x : Call} (hx : w.calls[k]? = some x) :
    x.waiter ∈ (w.wakeCall k).ready := by
  rw [wakeCall, hx]
  exact mem_wake w _

/-- Another call than one loses its identifier, and who waits for it is woken. -/
theorem cleared_strand {x : Connection} {l l' : Link} {id : Id} {k n : Nat} {q : List Task}
    (hx : w.conns[c]? = some x) (hl : x.link = some l) (ha : l.answer id = some (n, l'))
    (hr : w.Repeats c n id) (hk : n = k → w.calls[k]? = none) (hq : w.ready <+: q)
    (hw : ∀ y : Call, w.calls[n]? = some y → y.waiter ∈ q) :
    Cleared w { (w.setLink c l').strand n with ready := q } k := by
  have hs : { (w.setLink c l').strand n with ready := q } = { w with
      conns := w.conns.set c { x with link := some l' }
      calls := w.calls.modify n (·.resolve .closed)
      journal := .stranded n :: w.journal
      ready := q } := by
    rw [strand, setLink, modifyConn, modify_eq_set hx]
    rfl
  refine ⟨?_, rfl, loops_modifyConn fun _ => rfl, rfl, List.length_modify .., ?_⟩
  · rw [hs]
    exact .single (.strand hx hl ha hr hq fun y hy _ => hw y hy)
  · show (w.calls.modify n _)[k]? = _
    by_cases hn : n = k
    · rw [List.getElem?_modify, hk hn]
      rfl
    · simp [hn]

/-- A call gives up what has its identifier. That is its own request, or that of another call, which
loses it. -/
theorem exists_cleared {k : Nat} {x : Call} (hk : w.calls[k]? = some x) :
    ∃ u, Cleared w u k ∧ u.Owns k x.conn x.id ∧
      Roused (u.withdraw x.conn x.id) (w.abandon k x.conn x.id) := by
  by_cases ho : w.Owns k x.conn x.id
  · exact ⟨w, .refl w k, ho, roused_abandon ho⟩
  · obtain ⟨l, n, hl, hn, hne⟩ : ∃ l n, w.link? x.conn = some l ∧
        l.pending.lookup x.id = some n ∧ n ≠ k := by
      simpa [Owns] using ho
    obtain ⟨y, hy, hyl⟩ := link?_eq_some.mp hl
    let l' : Link := { l with pending := Link.without x.id l.pending }
    have ha : l.answer x.id = some (n, l') := by simp [Link.answer, hn, l']
    let s := (w.setLink x.conn l').strand n
    obtain ⟨q, hq, he⟩ := roused_wakeCall s n
    have hw : ∀ z : Call, w.calls[n]? = some z → z.waiter ∈ q := fun z hz => by
      have hs : s.calls[n]? = some (z.resolve .closed) := by
        simp [s, strand, modifyCall, emit, setLink, modifyConn, hz]
      have hm := mem_wakeCall hs
      rw [he] at hm
      rwa [Call.waiter_resolve] at hm
    have hc : Cleared w { s with ready := q } k :=
      cleared_strand hy hyl ha (.inr ⟨k, x, hne.symm, hk, rfl, rfl⟩) (fun h => absurd h hne) hq hw
    -- The peer is told all the same, though the request is that of the other call.
    have habsent : ∀ l₁, (({ s with ready := q } : Network).enqueue x.conn
        (cancelMessage x.id)).link? x.conn = some l₁ → l₁.pending.lookup x.id = none := by
      intro l₁ hl₁
      obtain ⟨l₂, hl₂, hp⟩ := pending_enqueue hl₁
      obtain ⟨z, hz, hzl⟩ := link?_eq_some.mp hl₂
      obtain ⟨y', -, rfl⟩ := Option.map_eq_some_iff.mp
        ((getElem?_modifyConn_self w x.conn _).symm.trans hz)
      obtain rfl := Option.some.inj hzl
      rw [← hp]
      exact Link.lookup_without x.id l.pending
    have hab : w.abandon k x.conn x.id = (({ s with ready := q } : Network).sendOn x.conn
        (cancelMessage x.id)).getD { s with ready := q } := by
      simp only [abandon, hl, Option.bind_some, ha, if_neg hne]
      rw [← he]
    refine ⟨({ s with ready := q } : Network).enqueue x.conn (cancelMessage x.id), ?_, ?_, ?_⟩
    · exact ⟨hc.moves.tail (.notify _ _ _), hc.runs, (loops_enqueue _ _ _).trans hc.loops,
        hc.clock, hc.length, hc.call⟩
    · intro l₁ m hl₁ hm
      cases (habsent l₁ hl₁).symm.trans hm
    · rw [withdraw_of_absent habsent, hab]
      exact roused_sendOn _ _ _

/-! ## Calls -/

/-- Before a call begins under an identifier that another one waits under, that one loses it. -/
theorem exists_cleared_start (x : Call) {l l' : Link} (params : Json) {n : Nat}
    (hl : w.link? x.conn = some l)
    (hs : l.start w.calls.length x.method params = some (x.id, l'))
    (hn : l.pending.lookup x.id = some n) :
    ∃ u l₁, Cleared w u w.calls.length ∧ u.link? x.conn = some l₁ ∧
      l₁.start u.calls.length x.method params = some (x.id, l') ∧
      l₁.pending.lookup x.id = none ∧ u.deadline x.conn = w.deadline x.conn ∧
      u.begun x l' params =
        (((w.strand n).begun x l' params).wakeIdleWriter x.conn).wakeCall n := by
  -- The writer is woken, and then who waits for the other call.
  obtain ⟨p, hp, hidle⟩ := roused_wakeIdleWriter ((w.strand n).begun x l' params) x.conn
  obtain ⟨q, hq, hcall⟩ :=
    roused_wakeCall (((w.strand n).begun x l' params).wakeIdleWriter x.conn) n
  have hw : ∀ y : Call, w.calls[n]? = some y → y.waiter ∈ q := fun y hy => by
    have hs : (w.strand n).calls[n]? = some (y.resolve .closed) := by
      simp [strand, modifyCall, emit, hy]
    have hb : (((w.strand n).begun x l' params).wakeIdleWriter x.conn).calls[n]? =
        some (y.resolve .closed) := by
      rw [hidle]
      exact getElem?_append_of_some hs [x]
    have hm := mem_wakeCall hb
    rw [hcall] at hm
    rwa [Call.waiter_resolve] at hm
  have hready : w.ready <+: q := by
    rw [hidle] at hq
    exact hp.trans hq
  rw [hcall, hidle]
  obtain ⟨y, hy, hyl⟩ := link?_eq_some.mp hl
  obtain ⟨ho, hi, hl'⟩ := Link.start_eq_some hs
  let l₁ : Link := { l with pending := Link.without x.id l.pending }
  have ha : l.answer x.id = some (n, l₁) := by simp [Link.answer, hn, l₁]
  let u : Network := { (w.setLink x.conn l₁).strand n with ready := q }
  have hu : u.conns[x.conn]? = some { y with link := some l₁ } := by
    simp [u, strand, emit, modifyCall, setLink, hy]
  have hlen : u.calls.length = w.calls.length := List.length_modify ..
  refine ⟨u, l₁, ?_, link?_eq_some.mpr ⟨_, hu, rfl⟩, ?_, Link.lookup_without _ _, ?_, ?_⟩
  · exact cleared_strand hy hyl ha (.inl ⟨l, hl, hi.symm⟩) (fun _ => by simp) hready hw
  · rw [hlen, Link.start, if_pos ho]
    simp only [l₁, Link.without_without, ← hi, hl']
  · rw [deadline, deadline, hu, hy]
    rfl
  · have hc : (u.conns.modify x.conn fun y => { y with link := some l' }) =
        w.conns.modify x.conn fun y => { y with link := some l' } :=
      List.modify_modify_eq ..
    rw [begun, modifyConn, hc]
    rfl

/-- How a call begins: over the open link that the dispatcher is bound to, under the next identifier
of that link. A call that waits under that identifier loses it. -/
theorem startCall_eq_ok {w' : Network} {d k : Nat} {method : String} {params : Json}
    {shape : Option Json.Shape} {waiter : Option Task}
    (h : w.startCall d method params shape waiter = .ok (k, w')) :
    ∃ u x l l', Cleared w u k ∧ w.boundConn? d = some x.conn ∧ u.link? x.conn = some l ∧
      l.start u.calls.length x.method params = some (x.id, l') ∧
      l.pending.lookup x.id = none ∧ x.state = .waiting ∧ x.waiter = waiter.getD (.caller k) ∧
      x.deadline = u.deadline x.conn ∧ x.method = method ∧ x.shape = shape ∧
      k = u.calls.length ∧ Roused (u.begun x l' params) w' := by
  simp only [startCall] at h
  split at h
  · cases h
  · next c id former l' hs =>
    obtain ⟨c', hc, hb⟩ := Option.bind_eq_some_iff.mp hs
    obtain ⟨l, hl, hm⟩ := Option.bind_eq_some_iff.mp hb
    obtain ⟨⟨id', l''⟩, hstart, he⟩ := Option.map_eq_some_iff.mp hm
    simp only [Prod.mk.injEq] at he
    obtain ⟨rfl, rfl, hf, rfl⟩ := he
    obtain ⟨rfl, rfl⟩ := Prod.mk.inj (Except.ok.inj h)
    let x : Call :=
      { conn := c', id := id', method, shape, deadline := w.deadline c'
        waiter := waiter.getD (.caller w.calls.length) }
    cases hn : l.pending.lookup id' with
    -- Nobody waits under the identifier: the call begins at once.
    | none =>
      rw [hn] at hf
      subst hf
      exact ⟨w, x, l, l'', .refl w _, hc, hl, hstart, hn, rfl, rfl, rfl, rfl, rfl, rfl,
        roused_wakeIdleWriter (w.begun x l'' params) c'⟩
    -- Somebody does, and loses it first.
    | some n =>
      rw [hn] at hf
      subst hf
      obtain ⟨u, l₁, hu, hl₁, hs₁, hn₁, hd, hw⟩ :=
        exists_cleared_start x params hl hstart hn
      refine ⟨u, x, l₁, l'', hu, hc, hl₁, hs₁, hn₁, rfl, rfl, hd.symm, rfl, rfl, hu.length.symm, ?_⟩
      rw [hw, begun, show (w.strand n).calls.length = w.calls.length from List.length_modify ..]
      exact .refl _

section check

variable {k : Nat} {x : Call}

/-- A reply is looked at before the clock is. -/
theorem checkCall_of_answered {r : Reply} (hk : w.calls[k]? = some x)
    (hx : x.state = .answered r) : w.checkCall k = w.endCall k (x.outcomeOf r) := by
  simp [checkCall, hk, hx]

/-- Who waits for a call whose connection is gone is told so. -/
theorem checkCall_of_closed (hk : w.calls[k]? = some x) (hx : x.state = .closed) :
    w.checkCall k = w.endCall k (.error .connectionClosed) := by
  simp [checkCall, hk, hx]

/-- A call that is over stays over. -/
theorem checkCall_of_isOver (hk : w.calls[k]? = some x) (hx : x.isOver = true) :
    w.checkCall k = w := by
  rw [Call.isOver] at hx
  rw [checkCall, hk]
  cases hs : x.state <;> simp_all

/-- A call that still has time goes on waiting. -/
theorem checkCall_of_early (hk : w.calls[k]? = some x) (hx : x.state = .waiting)
    (hd : x.isOverdue w.clock = false) : w.checkCall k = w := by
  rw [Call.isOverdue] at hd
  simp [checkCall, hk, hx, hd]

/-- A call whose time is over is given up, and its waiter told. -/
theorem checkCall_eq_of_overdue (hk : w.calls[k]? = some x) (hx : x.state = .waiting)
    (hd : x.isOverdue w.clock = true) :
    w.checkCall k = (w.abandon k x.conn x.id).endCall k (.error (.timedOut x.method)) := by
  rw [Call.isOverdue] at hd
  simp [checkCall, hk, hx, hd]

/-- Seen as moves: the table is cleared first, and then the call ends. -/
theorem checkCall_of_overdue (hk : w.calls[k]? = some x) (hx : x.state = .waiting)
    (hd : x.isOverdue w.clock = true) :
    ∃ u, Cleared w u k ∧ u.Owns k x.conn x.id ∧ Roused (u.expired k x) (w.checkCall k) := by
  obtain ⟨u, hu, ho, hr⟩ := exists_cleared hk
  refine ⟨u, hu, ho, ?_⟩
  rw [checkCall_eq_of_overdue hk hx hd]
  exact hr.map (f := fun w => w.endCall k _) fun _ _ => rfl

end check

/-- Looking whether a call is over is a move, or nothing. -/
theorem moves_checkCall (w : Network) (k : Nat) : Moves w (w.checkCall k) := by
  cases hk : w.calls[k]? with
  | none =>
    rw [checkCall, hk]
    exact .refl w
  | some x =>
    -- By the state of the call: it waits and is late or not, it has something to learn, or it is
    -- over.
    cases hx : x.state with
    | waiting =>
      cases hd : x.isOverdue w.clock with
      | false =>
        rw [checkCall_of_early hk hx hd]
        exact .refl w
      | true =>
        -- It is late: the call ends, and the cancellation goes out with that.
        obtain ⟨u, hu, ho, hr⟩ := checkCall_of_overdue hk hx hd
        have hm : Move u (u.expired k x) :=
          .expire (hu.call.trans hk) hx (by rwa [hu.clock]) ho
        exact (hu.moves.tail hm).roused hr
    | answered r =>
      rw [checkCall_of_answered hk hx]
      exact .single (.learn hk hx)
    | closed =>
      rw [checkCall_of_closed hk hx]
      exact .single (.lose hk hx)
    | ended o =>
      rw [checkCall_of_isOver hk (by simp [Call.isOver, hx])]
      exact .refl w
    | dropped =>
      rw [checkCall_of_isOver hk (by simp [Call.isOver, hx])]
      exact .refl w

/-- Giving a call up tells the peer, if the call still waits. -/
theorem dropCall_cases (w : Network) (k : Nat) :
    w.dropCall k = w ∨ ∃ u x, Cleared w u k ∧ w.calls[k]? = some x ∧ x.isOver = false ∧
      u.Owns k x.conn x.id ∧ Roused (u.givenUp k x) (w.dropCall k) := by
  cases hk : w.calls[k]? with
  | none =>
    rw [dropCall, hk]
    exact .inl rfl
  | some x =>
    cases hx : x.isOver with
    | true =>
      rw [Call.isOver] at hx
      -- The two states that count as over are passed over.
      rw [dropCall, hk]
      cases hs : x.state <;> simp_all
    | false =>
      have hd : w.dropCall k = ((w.abandon k x.conn x.id).modifyCall k
          fun x => { x with state := .dropped }).emit (.dropped k) := by
        rw [Call.isOver] at hx
        rw [dropCall, hk]
        cases hs : x.state <;> simp_all
      obtain ⟨u, hu, ho, hr⟩ := exists_cleared hk
      refine .inr ⟨u, x, hu, rfl, hx, ho, ?_⟩
      rw [hd]
      exact hr.map
        (f := fun w => (w.modifyCall k fun x => { x with state := .dropped }).emit (.dropped k))
        fun _ _ => rfl

/-- A call that has just begun is looked after at once: it is over only if it has no time at all. -/
theorem checkCall_begun {w' : Network} {x : Call} {l l' : Link} {params : Json}
    (hl : w.link? x.conn = some l) (hs : l.start w.calls.length x.method params = some (x.id, l'))
    (h : Roused (w.begun x l' params) w') (hx : x.state = .waiting) :
    (x.isOverdue w.clock = true ∧
      Roused ((w.begun x l' params).expired w.calls.length x) (w'.checkCall w.calls.length)) ∨
    (x.isOverdue w.clock = false ∧ w'.checkCall w.calls.length = w') := by
  obtain ⟨q, hq, rfl⟩ := h
  have hk :
      ({ w.begun x l' params with ready := q } : Network).calls[w.calls.length]? = some x := by
    simp [begun]
  cases hd : x.isOverdue w.clock with
  | false => exact .inr ⟨rfl, checkCall_of_early hk hx hd⟩
  | true =>
    have ho : ({ w.begun x l' params with ready := q } : Network).Owns w.calls.length x.conn x.id :=
      owns_begun hl hs
    have hr : Roused ((w.begun x l' params).expired w.calls.length x)
        (({ w.begun x l' params with ready := q } : Network).expired w.calls.length x) :=
      ⟨q, hq, rfl⟩
    refine .inl ⟨rfl, hr.trans ?_⟩
    rw [checkCall_eq_of_overdue hk hx hd]
    exact (roused_abandon ho).map (f := fun v => v.endCall w.calls.length _) fun _ _ => rfl

end post

/-- A call that is awaited from outside. -/
theorem moves_call {w w' : Network} {sender : Sender} {method : String}
    {params : Except Json.Cause Json} {shape : Option Json.Shape} {k : Nat}
    (h : w.call sender method params shape = .ok (k, w')) : Moves w w' := by
  cases hd : w.dispatcherOf sender with
  | error e => simp [call, hd] at h
  | ok d =>
    cases params with
    | error cause => simp [call, hd] at h
    | ok params =>
      simp only [call, hd] at h
      cases hs : w.startCall d method params shape none with
      | error e => simp [hs, Except.map] at h
      | ok p =>
        obtain ⟨n, v⟩ := p
        obtain ⟨u, x, l, l', hu, -, hl, hs', hn, hx, hw, ht, -, -, rfl, hv⟩ := startCall_eq_ok hs
        obtain ⟨rfl, rfl⟩ : u.calls.length = k ∧ v.checkCall u.calls.length = w' := by
          simpa [hs, Except.map] using h
        rcases checkCall_begun hl hs' hv hx with ⟨hd, hr⟩ | ⟨hd, hc⟩
        · exact (hu.moves.tail (.callLate hl hs' hn hx ht hd)).roused hr
        · rw [hc]
          exact (hu.moves.tail (.call hl hs' hn hx hw ht hd)).roused hv

/-! ## The end of waiting -/

/-- Resolving one call is the same as resolving a list of one. -/
theorem roused_resolveCall (w : Network) (k : Nat) (s : CallState) :
    Roused (w.resolved [k] s) (w.resolveCall k s) := by
  cases hk : w.calls[k]? with
  | none =>
    have hw : w.resolved [k] s = w := by
      rw [resolved, List.foldl_cons, List.foldl_nil, modify_eq_of_none hk]
    rw [hw, resolveCall, hk]
    exact .refl w
  | some x =>
    rw [resolveCall, hk]
    cases hx : x.isWaiting with
    -- A call that waits no more is left alone.
    | false =>
      have hw : w.resolved [k] s = w := by
        rw [resolved, List.foldl_cons, List.foldl_nil, modify_eq_set hk, Call.resolve, hx,
          if_neg (by rintro ⟨⟩), set_eq_self hk]
      rw [hw]
      simpa [hx] using Roused.refl w
    | true =>
      have hw : w.resolved [k] s = w.modifyCall k fun x => { x with state := s } := by
        rw [resolved, modifyCall, List.foldl_cons, List.foldl_nil, modify_eq_set hk,
          modify_eq_set hk, Call.resolve, hx, if_pos rfl]
      rw [hw]
      simpa [hx] using roused_wake _ x.waiter

/-- Who waits for a call is woken when a reply comes, or will not come. -/
theorem mem_resolveCall {w : Network} {k : Nat} {y : Call} (s : CallState)
    (hk : w.calls[k]? = some y)
    (hy : y.isWaiting = true) : y.waiter ∈ (w.resolveCall k s).ready := by
  rw [resolveCall, hk]
  simpa [hy] using mem_wake _ y.waiter

/-- Resolving calls one after the other wakes whoever waits for them. -/
theorem roused_resolveCalls (ks : List Nat) (w : Network) (s : CallState) :
    Roused (w.resolved ks s) (ks.foldl (fun w k => w.resolveCall k s) w) ∧
    ∀ k ∈ ks, ∀ y : Call, w.calls[k]? = some y → y.isWaiting = true →
      y.waiter ∈ (ks.foldl (fun w k => w.resolveCall k s) w).ready := by
  induction ks generalizing w with
  | nil => exact ⟨.refl w, by simp⟩
  | cons k ks ih =>
    obtain ⟨hr, hm⟩ := ih (w.resolveCall k s)
    have h1 := roused_resolveCall w k s
    refine ⟨(h1.map (f := fun w => w.resolved ks s) fun _ _ => rfl).trans hr, ?_⟩
    intro k' hk' y hy hw
    by_cases he : k' = k
    · subst he
      -- Who is woken once stays in the queue, whatever follows.
      exact hr.ready.subset (mem_resolveCall s hy hw)
    · refine hm k' ((List.mem_cons.mp hk').resolve_left he) y ?_ hw
      obtain ⟨q, -, h1⟩ := h1
      rw [h1]
      simpa [resolved, List.getElem?_modify, Ne.symm he] using hy

/-! ## Time -/

/-- A call that has lasted too long is among those that are looked at. -/
theorem mem_overdue {w : Network} {k : Nat} {x : Call} (hk : w.calls[k]? = some x)
    (hx : x.isWaiting = true) (hd : x.isOverdue w.clock = true) : ∃ t, (t, k) ∈ w.overdue := by
  obtain ⟨t, ht, hd⟩ := (Option.any_eq_true _ _).mp hd
  refine ⟨t, List.mem_mergeSort.mpr (List.mem_filterMap.mpr ⟨(x, k), ?_, ?_⟩)⟩
  · exact List.mem_zipIdx_iff_getElem?.mpr hk
  · simp only [hx, ↓reduceIte, ht, Option.filter_some, hd, Option.map_some]

/-- Who waits for each of some calls is woken, and stays in the queue. -/
theorem roused_wakeWaiters (es : List (Nat × Nat)) (w : Network) :
    Roused w (es.foldl (fun w e => (w.calls[e.2]?).elim w fun x => w.wake x.waiter) w) ∧
    ∀ e ∈ es, ∀ x : Call, w.calls[e.2]? = some x →
      x.waiter ∈
        (es.foldl (fun w e => (w.calls[e.2]?).elim w fun x => w.wake x.waiter) w).ready := by
  -- Along the entries: each waiter is put at the end of the queue, and nobody leaves it.
  induction es generalizing w with
  | nil => exact ⟨.refl w, by simp⟩
  | cons e es ih =>
    have hr : Roused w ((w.calls[e.2]?).elim w fun x => w.wake x.waiter) := by
      cases w.calls[e.2]? with
      | none => exact .refl w
      | some x => exact roused_wake w _
    obtain ⟨hq, hm⟩ := ih ((w.calls[e.2]?).elim w fun x => w.wake x.waiter)
    refine ⟨hr.trans hq, fun e' he x hx => ?_⟩
    rcases List.mem_cons.mp he with rfl | he
    · refine hq.ready.subset ?_
      rw [hx]
      exact mem_wake w _
    · refine hm e' he x ?_
      obtain ⟨q, -, hr⟩ := hr
      rw [hr]
      exact hx

/-- Who waits for a call that has lasted too long is woken when time passes. -/
theorem moves_advance (w : Network) (secs : Nat) : Moves w (w.advance secs) := by
  let v : Network := { w with clock := w.clock + secs }
  have hv : w.advance secs =
      v.overdue.foldl (fun w e => (w.calls[e.2]?).elim w fun x => w.wake x.waiter) v := rfl
  obtain ⟨⟨q, hq, he⟩, hm⟩ := roused_wakeWaiters v.overdue v
  rw [hv, he]
  refine .single (.advance (Nat.le_add_right _ _) hq fun k x hk hx hd => ?_)
  obtain ⟨t, ht⟩ := mem_overdue (w := v) hk hx hd
  have := hm (t, k) ht x hk
  rwa [he] at this

end Parley.Network

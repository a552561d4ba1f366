import Parley.Network.Incoming
import Parley.Proofs.Routed
import Parley.Proofs.Serving

/-!
# What comes in, as moves

A message is handed on while its connection is still read from. It starts runs, answers a call,
cancels a run or is refused, and leaves the loops of all connections alone.

- `Network.inside_receive`: a message is handed on.
- `Network.Inside.conn`: the loop that reads goes on.
-/

namespace Parley.Network

variable {w : Network} {c : Nat} {x : Connection}

/-- What leaves the loops alone lets a loop that reads go on. -/
theorem Inside.conn {w' : Network} (h : Inside w w') (hx : w.conns[c]? = some x)
    (hr : x.IsReading) : ∃ l, w'.conns[c]? = some { x with link := l } ∧
      ({ x with link := l } : Connection).IsReading := by
  obtain ⟨l, hl⟩ := getElem?_of_loops h.loops hx
  exact ⟨l, hl, hr⟩

/-! ## Replies -/

section reading

variable (hx : w.conns[c]? = some x) (hr : x.IsReading)

include hx hr

theorem inside_receiveReply {d : Nat} (hd : x.dispatcher = some d) (r : Reply) :
    Inside w ((w.emit (.received c (.reply r))).receiveReply c r) := by
  have hl : (w.emit (.received c (.reply r))).link? c = x.link := by simp [link?, emit, hx]
  rw [receiveReply, hl]
  cases ha : x.link.bind fun l => l.answer r.id with
  -- Nobody waits for it, so the dispatch loop notes it down and goes on.
  | none =>
    have hn : ∀ r' l, Message.reply r = .reply r' → x.link = some l →
        l.pending.lookup r'.id = none := by
      rintro _ l ⟨⟩ hl
      simpa [hl, Link.answer] using ha
    have hm := Move.receive (m := .reply r) hx hr hd (by simp) hn
    rw [heed_reply] at hm
    exact (Inside.single hm rfl).trans (aside_log _ _).inside
  | some p =>
    obtain ⟨k, l'⟩ := p
    obtain ⟨l, hl, ha⟩ := Option.bind_eq_some_iff.mp ha
    let v := (w.emit (.received c (.reply r))).setLink c l'
    -- Somebody does: the entry is taken out, the call resolved, and its waiter woken.
    obtain ⟨q, hq, he⟩ := roused_resolveCall v k (.answered r)
    have hm := fun y => mem_resolveCall (w := v) (k := k) (y := y) (.answered r)
    rw [he] at hm
    have hv : v.resolveCall k (.answered r) = { w with
        conns := w.conns.set c { x with link := some l' }
        calls := w.calls.modify k (·.resolve (.answered r))
        journal := .received c (.reply r) :: w.journal
        ready := q } := by
      rw [he]
      simp only [v, setLink, modifyConn, emit, resolved, modify_eq_set hx]
      rfl
    show Inside w (v.resolveCall k (.answered r))
    rw [hv]
    refine .single (.answer hx hr hl ha hq fun y hy hw => hm y hy hw) ?_
    rw [← modify_eq_set hx fun x => { x with link := some l' }]
    exact loops_modifyConn (w := w) (f := fun x => { x with link := some l' }) fun _ => rfl

/-! ## Notifications -/

/-- A message comes in that is neither a request nor a reply. -/
theorem inside_heed {d : Nat} (hd : x.dispatcher = some d) {m : Message}
    (hm : ∀ id method params, m ≠ .request id method params) (hm' : ∀ r, m ≠ .reply r) :
    Inside w ((w.heed d m).emit (.received c m)) :=
  .single (.receive hx hr hd hm fun r _ h _ => absurd h (hm' r)) rfl

theorem inside_receiveCancel {d : Nat} (hd : x.dispatcher = some d) (params : Json) :
    Inside w
      ((w.emit (.received c (.notification cancelMethod params))).receiveCancel d params) := by
  have hv := inside_heed hx hr hd (m := .notification cancelMethod params) (by simp) (by simp)
  rw [heed_cancel, named] at hv
  rw [receiveCancel]
  split
  · -- Without a readable id nothing is cancelled; with one, whatever the table has under it.
    next hi =>
    rw [hi] at hv
    exact hv.trans (aside_log _ _).inside
  · next id hi =>
    rw [hi, Option.bind_some] at hv
    split
    · next hl =>
      rw [show w.held d id = none from hl] at hv
      exact hv
    · next r hl =>
      rw [show w.held d id = some r from hl] at hv
      refine hv.roused ?_
      rw [cancelRun]
      split
      · exact roused_wake _ _
      · exact .refl _

theorem inside_spawn {y : Run}
    (hk : (∀ d ∈ w.dispatchers, d.Tabled) → y.handler.kind.isRequest = false) (hc : y.conn = c)
    (hi : y.id = none) (hs : y.stage = .fresh) : Inside w (w.spawn y) := by
  have hm := Move.spawn hx hr hk hc hi hs
  rw [← hc] at hm
  exact (Inside.single hm rfl).roused (roused_wake _ _)

/-- Each handler of a notification gets a run of its own. -/
theorem inside_spawns (d : Nat) (method : String) (params : Json) (hs : List Handler)
    (hk : (∀ d ∈ w.dispatchers, d.Tabled) → ∀ h ∈ hs, h.kind.isRequest = false) :
    Inside w (hs.foldl (fun w handler =>
      w.spawn { conn := c, dispatcher := d, id := none, method, handler, params }) w) := by
  induction hs generalizing w x with
  | nil => exact .refl w
  | cons h hs ih =>
    let v := w.spawn { conn := c, dispatcher := d, id := none, method, handler := h, params }
    have hw : Inside w v := inside_spawn hx hr (fun ht => hk ht h List.mem_cons_self) rfl rfl rfl
    have hd : v.dispatchers = w.dispatchers := by
      show (wake _ _).dispatchers = _
      rw [wake_eq]
      rfl
    obtain ⟨l, hl, hr'⟩ := hw.conn hx hr
    exact hw.trans (ih hl hr' fun ht h' hm => hk (hd ▸ ht) h' (List.mem_cons_of_mem h hm))

theorem inside_receiveNotification {d : Nat} (hd : x.dispatcher = some d) (method : String)
    (params : Json) :
    Inside w ((w.emit (.received c (.notification method params))).receiveNotification c d method
      params) := by
  rw [receiveNotification]
  split
  · next hm =>
    subst hm
    exact inside_receiveCancel hx hr hd params
  · next hm =>
    have hv := inside_heed hx hr hd (m := .notification method params) (by simp) (by simp)
    rw [heed_notification w d params hm, modifyDispatcher] at hv
    split
    · next hz =>
      replace hz : w.dispatchers[d]? = none := hz
      rw [modify_eq_of_none hz] at hv
      exact hv
    · next z hz =>
      replace hz : w.dispatchers[d]? = some z := hz
      -- The memory is updated before and after the handlers are looked up; they see the documents
      -- that this message opens.
      let z' := (z.observe method params).observeClosed method params
      rw [modify_eq_set hz, ← modify_eq_set hz fun _ => z'] at hv
      refine hv.trans (inside_spawns (w := ((w.modifyDispatcher d fun _ => z').emit _)) hx hr d
        method params _ fun ht h hh => ?_)
      have hz' : z' ∈ (w.modifyDispatcher d fun _ => z').dispatchers := by
        rw [modifyDispatcher, modify_eq_set hz]
        exact List.mem_set (List.getElem?_eq_some_iff.mp hz).1 z'
      have ht : (z.observe method params).Tabled :=
        ⟨(ht z' hz').requests, (ht z' hz').notifications⟩
      exact ht.handlersFor hh

/-! ## Requests -/

theorem inside_receiveRequest {d : Nat} (hd : x.dispatcher = some d) (id : Id) (method : String)
    (params : Json) :
    Inside w ((w.emit (.received c (.request id method params))).receiveRequest c d id method
      params) := by
  rw [receiveRequest]
  split
  · next hh =>
    refine (Inside.single (.refuse hx hr hd fun y hy => ?_) (loops_enqueue _ c _)).roused
      (roused_sendOn _ c _)
    simpa [emit, hy] using hh
  · next handler hh =>
    obtain ⟨y, hy, hh⟩ := Option.bind_eq_some_iff.mp hh
    let z : Run := { conn := c, dispatcher := d, id := some id, method, handler, params }
    have hm := Move.serve (y := z) hx hr hd hy hh rfl rfl rfl rfl
    exact (Inside.single hm rfl).roused (roused_wake _ _)

/-! ## Every message -/

/-- A message is handed on. -/
theorem inside_receive (m : Message) : Inside w (w.receive c m) := by
  rw [receive, hx, Option.bind_some]
  split
  · exact .refl w
  · next d hd =>
    cases m with
    | reply r => exact inside_receiveReply hx hr hd r
    | unidentified f =>
      have hv := inside_heed hx hr hd (m := .unidentified f) (by simp) (by simp)
      rw [w.heed_of_eq d fun _ => rfl] at hv
      exact hv.trans (aside_log _ _).inside
    | notification method params => exact inside_receiveNotification hx hr hd method params
    | request id method params => exact inside_receiveRequest hx hr hd id method params

end reading

end Parley.Network

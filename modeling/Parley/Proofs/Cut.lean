import Parley.Proofs.Causes
import Parley.Proofs.Resolution

/-!
# One clean cut

However the end of a connection begins, it is one cut. From then on the link is closed and nobody
waits for a reply, every handler that serves the connection has been told to stop, and nothing that
happens later lets a message in or out, or changes how the end began.

- `Connection.Unbroken`: a connection that is connected has never failed to write.
- `Network.Reachable.closed_of_pending`: a call that waited when the end began.
- `Network.ends_once`: the whole.
-/

namespace Parley

namespace Connection

variable {c : Nat} {x y : Connection} {j : Journal} {es : List Event}

/-- A connection that has failed to write is at its end. -/
def Unbroken (c : Nat) (x : Connection) (j : Journal) : Prop :=
  Sound c x j ∧ (j.isBroken c = true → j.cuts c ≠ [])

/-- A failure to write is noted after the end has begun. -/
theorem not_isBroken_or_ended (hS : Sound c x j) (hm : ConnMove c x es y) :
    Journal.isBroken c es = false ∨ j.cuts c ≠ [] := by
  have offered : ∀ (m : Message), Journal.isBroken c (x.offered c m) = false := by
    intro m
    rcases x.offer_cases c m with ⟨l, -, -, he, -⟩ | ⟨-, he, -⟩ <;> rw [he] <;> rfl
  -- Only the turn that stops a broken writer breaks anything, and it happens after the cut.
  cases hm with
  | elsewhere e he => exact .inl (Journal.isBroken_elsewhere he [])
  | turn ht =>
    cases ht with
    | stopBroken hp hw =>
      rcases hS.not_unused_of_isWriting hw with ⟨l, hl⟩ | ⟨l, flush, he⟩
      · simp [hl.phase, Phase.isLive] at hp
      · exact .inr (by simp [he.cuts])
    | _ => exact .inl rfl
  | notify method params => exact .inl (offered _)
  | forget id =>
    rcases x.forget_cases c id with ⟨l, k, y, -, -, -, he, -⟩ | ⟨-, he, -⟩
    · rw [he]
      rcases y.offer_cases c (cancelMessage id) with ⟨l, -, -, he, -⟩ | ⟨-, he, -⟩ <;>
        exact .inl (by rw [he]; rfl)
    · exact .inl (by rw [he]; rfl)
  | refuse h => exact .inl (by rw [Journal.isBroken_append, offered]; rfl)
  | reply r id outcome => exact .inl (by rw [Journal.isBroken_append, offered]; rfl)
  | _ => exact .inl rfl

theorem Unbroken.step (h : Unbroken c x j) (hm : ConnMove c x es y) : Unbroken c y (es ++ j) := by
  refine ⟨h.1.step hm, fun hb => ?_⟩
  rw [Journal.cuts_append]
  rw [Journal.isBroken_append] at hb
  rcases not_isBroken_or_ended h.1 hm with he | he
  · rw [he, Bool.false_or] at hb
    exact fun hn => h.2 hb (List.append_eq_nil_iff.mp hn).1
  · exact fun hn => he (List.append_eq_nil_iff.mp hn).1

end Connection

namespace Network

variable {w : Network} {c : Nat}

theorem Reachable.unbroken (h : Reachable w) : w.Each Connection.Unbroken := by
  refine h.each (fun {c x j} hx hj => ⟨.unused (hx.unused hj), fun hb => ?_⟩)
    fun hS hm => hS.step hm
  rw [Journal.isBroken_eq_false hj] at hb
  cases hb

/-! ## Calls over a connection that ends -/

/-- What a call over a connection that has ended came to: it does not wait any more. -/
theorem Reachable.isDecided_of_cut (h : Reachable w) {flush : Bool}
    (hc : (w.journal.cuts c).head? = some flush) {k : Nat} {x : Call}
    (hx : w.calls[k]? = some x) (hxc : x.conn = c) : (w.fateOf k x).isDecided = true := by
  obtain ⟨y, l, hy, he⟩ := h.ended hc
  subst hxc
  refine (h.fits hx).isDecided fun hs => ?_
  have hm := (h.inOrder.1.calls x.conn).1 k x hx rfl hs
  rw [table_of_conn hy, Connection.table_of_link he.link, he.pending] at hm
  exact absurd hm List.not_mem_nil

/-- A call that waited when the end of its connection began fails with that. -/
theorem fateOf_of_cut {es j : Journal} {flush : Bool} (hj : w.journal = es ++ .cut c flush :: j)
    {k : Nat} {x : Call} (hxc : x.conn = c) (hp : j.fate k c x.id = .pending) :
    w.fateOf k x = .closed := by
  have hcut : Journal.fate k c x.id (.cut c flush :: j) = .closed := by
    rw [Journal.fate, hp, Fate.after, if_pos rfl]
  rw [fateOf, hj, hxc, Journal.fate_of_isDecided, hcut]
  rw [hcut]
  rfl

/-- Who waits for such a call is told so, unless he gave up. -/
theorem Reachable.told_closed (h : Reachable w) {k : Nat} {x : Call} (hx : w.calls[k]? = some x)
    (hf : w.fateOf k x = .closed) (hs : x.state ≠ .dropped) {n : Nat} (hq : w.ready.length ≤ n) :
    (settle n w).journal.told k = [.error .connectionClosed] := by
  have hd : (w.fateOf k x).isDecided = true := by rw [hf]; rfl
  obtain ⟨o, ht, ho⟩ := h.told_soon hx (.inl hd) hs hq
  have hlater : (settle n w).fateOf k x = .closed := (fateOf_run h hd [.settle n]).trans hf
  rw [hlater] at ho
  cases ho
  exact ht

/-! ## The whole -/

/-- **One clean cut.** Whatever may begin the end of a connection does so once, with its own choice
whether what is queued is still written. From then on its link is closed and its table is empty,
every run that serves it is cancelled, and every call over it that waited fails. Nothing that
happens later lets anything in or out, opens the link again, or changes that choice, and asking for
the end once more changes nothing at all. -/
theorem ends_once (h : Reachable w) (c : Nat) :
    (∀ x, w.conns[c]? = some x → x.phase = .connected →
      (∀ flush, (w.disconnect c flush).journal.cuts c = [flush]) ∧
      (w.dropConn c).journal.cuts c = [false] ∧
      (∀ q s, x.reading = .running s →
        (({ w with ready := q } : Network).perform (.reader c)).journal.cuts c =
          (verdict x.config.maxContentLength s (({ w with ready := q } : Network).takeInput c).1
            (({ w with ready := q } : Network).takeInput c).2.1).cuts x.config.flushOnEnd) ∧
      (∀ q, Broke (({ w with ready := q } : Network).perform (.writer c)) c)) ∧
    (∀ (v : Network) (x : Connection) (rest : List UInt8) (text : String), v.Steady →
      v.conns[c]? = some x → x.phase = .connected → x.writing = .busy rest →
      v.writeFault c rest = some text →
      (v.writeOn c rest).journal.isBroken c = true ∧
        (v.writeOn c rest).journal.cuts c = [false]) ∧
    (∀ flush, (w.journal.cuts c).head? = some flush →
      (∃ x l, w.conns[c]? = some x ∧ Connection.Ended c x w.journal l flush) ∧
      (∀ y ∈ w.runs, y.conn = c → w.isCancelled y = true) ∧
      (∀ k x, w.calls[k]? = some x → x.conn = c →
        (w.fateOf k x).isDecided = true ∧
        ∀ (es j : Journal) (f : Bool), w.journal = es ++ .cut c f :: j →
          j.fate k c x.id = .pending →
          w.fateOf k x = .closed ∧
          (x.state ≠ .dropped → ∀ n, w.ready.length ≤ n →
            (settle n w).journal.told k = [.error .connectionClosed])) ∧
      (∀ actions, (run w actions).journal.received c = w.journal.received c ∧
        (run w actions).journal.accepted c = w.journal.accepted c ∧
        ∃ x l, (run w actions).conns[c]? = some x ∧
          Connection.Ended c x (run w actions).journal l flush) ∧
      (∀ f, w.disconnect c f = w ∧ w.dropConn c = w ∧ w.teardown c f = w)) := by
  refine ⟨fun x hx hp => ⟨fun flush => ?_, ?_, fun q s hs => ?_, fun q => ?_⟩,
    fun v x rest text hv hx hp hw hf => ?_, fun flush hc => ?_⟩
  · rw [disconnect_of_connected hx (by simp [hp])]
    exact h.steady.cuts_teardown hx hp flush (.refl _)
  · rw [dropConn_of_connected hx (by simp [hp])]
    exact h.steady.cuts_teardown hx hp false (.refl _)
  · exact cuts_readLoop (h.steady.pop q) hx hp hs
  · -- As long as its end has not begun, writing has not failed.
    have hb : w.journal.isBroken c = false := by
      obtain ⟨l, hl⟩ := h.steady.live hx hp
      cases hb : w.journal.isBroken c with
      | false => rfl
      | true => exact absurd hl.cuts ((h.unbroken.conn c x hx).2 hb)
    exact broke_writeLoop _ (h.steady.pop q) hx hp hb
  · obtain ⟨l, hl⟩ := hv.live hx hp
    rcases writeOn_cases hv hx hp hl.aborted hw with ⟨-, hb, hc⟩ | ⟨hn, -, -⟩
    · exact ⟨hb, hc⟩
    · cases hf.symm.trans hn
  · obtain ⟨x, l, hx, he⟩ := h.ended hc
    refine ⟨⟨x, l, hx, he⟩, fun y hy hyc => ?_, fun k y hy hyc => ⟨?_, ?_⟩, fun actions => ?_,
      fun f => ?_⟩
    · simp [isCancelled, hyc, hx, he.shutdown]
    · exact h.isDecided_of_cut hc hy hyc
    · intro es j f hj hp
      have hf := fateOf_of_cut hj hyc hp
      exact ⟨hf, fun hs n hq => h.told_closed hy hf hs hq⟩
    · -- Whatever follows is a series of moves of a connection whose end has begun.
      obtain ⟨z, es, hz, hj, hm⟩ := (path_run w actions).conn h.housed hx
      obtain ⟨⟨k, hk⟩, hacc, hrec⟩ := he.frozen hm
      rw [hj, Journal.received_append, Journal.accepted_append, hacc, hrec, List.append_nil,
        List.append_nil]
      exact ⟨rfl, rfl, z, k, hz, hk⟩
    · have ht : ∀ f, w.teardown c f = w := teardown_of_not_live fun y hy => by
        obtain rfl := Option.some.inj (hx.symm.trans hy)
        exact he.not_isLive
      have hp : x.phase ≠ .disconnected := by
        rcases he.phase with hp | ⟨hp, -⟩ <;> simp [hp]
      rw [disconnect_of_connected hx hp, dropConn_of_connected hx hp]
      exact ⟨ht f, ht false, ht f⟩

/-- A connection that is disconnected while a call over it waits. -/
theorem ends_once_disconnected :
    let w := run {} [.openScript {}, .openDispatcher, .connect 0 0,
      .call (.conn 0) "a" (.ok .null) none, .disconnect 0 true]
    w.journal.accepted 0 = [.request (.number 0) "a" .null] ∧ w.disconnect 0 false = w ∧
      ∀ actions, (run w actions).journal.accepted 0 = w.journal.accepted 0 := by
  intro w
  have h : Reachable w := ⟨_, rfl⟩
  have hc : (w.journal.cuts 0).head? = some true := by decide +kernel
  obtain ⟨-, -, -, hlater, hagain⟩ := (ends_once h 0).2.2 true hc
  exact ⟨by decide +kernel, (hagain false).1, fun actions => (hlater actions).2.1⟩

end Network

end Parley

import Parley.Proofs.Running
import Parley.Proofs.Wire

/-!
# Delivery

What a connection writes to its stream are the frames of the messages that it accepted, in the order
in which it accepted them, and nothing between them. An end that flushes leaves nothing out.

- `Network.Reachable.sound`: every connection is in one of the parts of its life.
- `Network.Reachable.carried`: where the accepted messages of a connection are.
- `Network.written_in_order`: the whole.
-/

namespace Parley

namespace Connection

variable {c : Nat} {x : Connection} {j : Journal}

theorem IsFresh.unused (h : x.IsFresh) (hj : ∀ e ∈ j, e.concerns c = false) : Unused c x j := by
  obtain ⟨config, stream, rfl⟩ := h
  exact
    { phase := .inl rfl, hasStream := fun _ => rfl, link := rfl, reading := rfl, writing := rfl
      shutdown := rfl, aborted := rfl, cuts := Journal.cuts_eq_nil hj }

theorem IsFresh.carried (h : x.IsFresh) (hj : ∀ e ∈ j, e.concerns c = false) : Carried c x j := by
  obtain ⟨config, stream, rfl⟩ := h
  exact .unused rfl (Journal.accepted_eq_nil hj) (Journal.written_eq_nil hj)

/-- The beginning of the end is all that happens then. -/
theorem eq_of_mem_cut {y : Connection} {es : List Event} {flush : Bool} (hm : ConnMove c x es y)
    (he : .cut c flush ∈ es) : es = [.cut c flush] := by
  have offered : ∀ (z : Connection) (m : Message), .cut c flush ∉ z.offered c m := by
    intro z m
    rcases z.offer_cases c m with ⟨l, -, -, hz, -⟩ | ⟨-, hz, -⟩ <;> simp [hz]
  -- A cut is the only event of its move; no other move has one among its events.
  cases hm with
  | elsewhere e hc =>
    obtain rfl := List.mem_singleton.mp he
    simp [Event.concerns] at hc
  | turn ht => cases ht <;> simp at he
  | notify method params => exact absurd he (offered x _)
  | forget id =>
    rcases x.forget_cases c id with ⟨l, k, z, -, -, -, hz, -⟩ | ⟨-, hz, -⟩
    · rw [hz] at he
      exact absurd he (offered z _)
    · simp [hz] at he
  | refuse h => simp [offered] at he
  | reply r id outcome => simp [offered] at he
  | cut h f =>
    obtain rfl : flush = f := by simpa using he
    rfl
  | _ => simp at he

/-- A connection writes nothing after an end that does not flush. -/
def Muted (c : Nat) (x : Connection) (j : Journal) : Prop :=
  Sound c x j ∧ ∀ es j₀, j = es ++ .cut c false :: j₀ → Journal.written c es = []

theorem Muted.step {y : Connection} {es : List Event} (h : Muted c x j) (hm : ConnMove c x es y) :
    Muted c y (es ++ j) := by
  have mute : false ∈ j.cuts c → Journal.written c es = [] := fun hc => by
    cases h.1 with
    | unused hu => simp [hu.cuts] at hc
    | live hl => simp [hl.cuts] at hc
    | @ended l flush he =>
      obtain rfl : false = flush := by simpa [he.cuts] using hc
      exact he.mute hm
  refine ⟨h.1.step hm, fun fs j₀ hj => ?_⟩
  rcases List.append_eq_append_iff.mp hj with ⟨gs, rfl, hgs⟩ | ⟨gs, rfl, hgs⟩
  · -- The end had begun before.
    rw [Journal.written_append, h.2 gs j₀ hgs, List.nil_append]
    exact mute (by simp [hgs, Journal.cuts_append, Journal.cuts])
  · cases gs with
    | nil =>
      rw [List.append_nil] at mute
      exact mute (by rw [← hgs.trans (List.nil_append j)]; simp [Journal.cuts])
    | cons e gs =>
      -- It begins now.
      obtain ⟨rfl, -⟩ := List.cons.inj hgs
      have he := eq_of_mem_cut hm (show Event.cut c false ∈ _ by simp)
      have hf : fs = [] := by
        have hl := congrArg List.length he
        simp only [List.length_append, List.length_cons, List.length_nil] at hl
        exact List.eq_nil_of_length_eq_zero (by omega)
      rw [hf]
      rfl

end Connection

namespace Network

open Connection (Sound Carried Muted)

variable {w : Network}

/-! ## Every connection of a network -/

theorem Reachable.sound (h : Reachable w) : w.Each Sound :=
  h.each (fun hx hj => .unused (hx.unused hj)) fun hS hm => hS.step hm

theorem Reachable.carried (h : Reachable w) : w.Each fun c x j => Sound c x j ∧ Carried c x j :=
  h.each (fun hx hj => ⟨.unused (hx.unused hj), hx.carried hj⟩)
    fun hS hm => ⟨hS.1.step hm, hS.2.step hS.1 hm⟩

/-- A connection whose end has begun is in the last part of its life. -/
theorem Reachable.ended (h : Reachable w) {c : Nat} {flush : Bool}
    (hc : (w.journal.cuts c).head? = some flush) :
    ∃ x l, w.conns[c]? = some x ∧ Connection.Ended c x w.journal l flush := by
  cases hx : w.conns[c]? with
  | none => simp [Journal.cuts_eq_nil (h.sound.other c hx)] at hc
  | some x =>
    cases h.sound.conn c x hx with
    | unused hu => simp [hu.cuts] at hc
    | live hl => simp [hl.cuts] at hc
    | @ended l f he =>
      obtain rfl : f = flush := by simpa [he.cuts] using hc
      exact ⟨x, l, rfl, he⟩

theorem Reachable.muted (h : Reachable w) : w.Each Muted := by
  refine h.each (fun {c x j} hx hj => ⟨.unused (hx.unused hj), fun es j₀ he => ?_⟩)
    fun hM hm => hM.step hm
  have hc := Journal.cuts_eq_nil hj
  simp [he, Journal.cuts_append, Journal.cuts] at hc

/-! ## The order of what is written -/

/-- What a connection has written is the beginning of the frames of what it accepted. -/
theorem Reachable.written_isPrefix (h : Reachable w) (c : Nat) :
    w.journal.written c <+: wire (w.journal.accepted c) := by
  cases hx : w.conns[c]? with
  | none =>
    rw [Journal.written_eq_nil (h.sound.other c hx)]
    exact List.nil_prefix
  | some x =>
    cases (h.carried.conn c x hx).2 with
    | unused _ _ hw =>
      rw [hw]
      exact List.nil_prefix
    | running ms _ _ hb =>
      rw [hb, List.append_assoc]
      exact List.prefix_append _ _
    | stopped _ hw _ => exact hw

/-- **First in, first out.** What a connection has written is at every time the beginning of the
frames of what it accepted, in order. If its end began with a flush and writing never failed, then
all of them are written when it is closed, whatever was asked for in between. After an end that does
not flush has begun, nothing more is written at all, so no frame is begun. -/
theorem written_in_order (h : Reachable w) (c : Nat) :
    w.journal.written c <+: wire (w.journal.accepted c) ∧
    ((w.journal.cuts c).head? = some true → w.journal.isBroken c = false →
      (w.conns[c]?).map Connection.phase = some .closed →
      w.journal.written c = wire (w.journal.accepted c)) ∧
    (∀ es j : Journal, w.journal = es ++ .cut c false :: j →
      w.journal.written c = j.written c) := by
  refine ⟨h.written_isPrefix c, fun hc hb hp => ?_, fun es j hj => ?_⟩
  · -- The queue was flushed: the writing loop has stopped by now, and stopped with nothing left.
    obtain ⟨x, l, hx, he⟩ := h.ended hc
    obtain hp : x.phase = .closed := by simpa [hx] using hp
    have hf : x.isFinished = true := by
      rcases he.phase with hd | ⟨-, hf⟩
      · cases hp.symm.trans hd
      · exact hf
    have hs : x.writing = .stopped := by
      rw [Connection.isFinished, Bool.and_eq_true] at hf
      exact of_decide_eq_true hf.2
    cases (h.carried.conn c x hx).2 with
    | unused hl _ _ => cases he.link.symm.trans hl
    | running _ hw _ _ => rcases hw with hw | ⟨rest, hw⟩ <;> cases hs.symm.trans hw
    | stopped _ _ hd => exact hd he.cuts hb
  · -- What comes after a cut that does not flush writes nothing.
    have hw : Journal.written c es = [] := by
      cases hx : w.conns[c]? with
      | none =>
        have hc := Journal.cuts_eq_nil (h.sound.other c hx)
        simp [hj, Journal.cuts_append, Journal.cuts] at hc
      | some x => exact (h.muted.conn c x hx).2 es j hj
    rw [hj, Journal.written_append, hw, List.append_nil]
    rfl

/-- A notification that is queued when an end begins that flushes, and then another end that does
not. -/
theorem written_in_order_flushed :
    let w := run {} [.openScript {}, .openDispatcher, .connect 0 0,
      .notify (.conn 0) "a" (.ok .null), .disconnect 0 true, .disconnect 0 false, .settle 5]
    w.journal.accepted 0 = [.notification "a" .null] ∧
      w.journal.written 0 = wire (w.journal.accepted 0) := by
  intro w
  have hc : (w.journal.cuts 0).head? = some true := by decide +kernel
  have hb : w.journal.isBroken 0 = false := by decide +kernel
  have hp : (w.conns[0]?).map Connection.phase = some .closed := by decide +kernel
  exact ⟨by decide +kernel, (written_in_order ⟨_, rfl⟩ 0).2.1 hc hb hp⟩

end Network

end Parley

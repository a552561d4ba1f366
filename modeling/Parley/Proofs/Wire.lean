import Parley.Proofs.Lifecycle

/-!
# What is written to a stream

What a connection has accepted is either written, or it is the rest of the frame under way, or it
stands in the queue, in this order and as whole frames. A loop that stops leaves a part of it
unwritten, but the loop that finds the end mark leaves nothing.

- `wire`: messages as the bytes that they become.
- `Connection.Carried`: where the accepted messages are; `Carried.step` says that every move keeps
  this.
-/

namespace Parley

/-- The bytes of messages, each in its frame. -/
def wire (ms : List Message) : List UInt8 := ms.flatMap Message.frame

@[simp] theorem wire_nil : wire [] = [] := rfl

@[simp] theorem wire_cons (m : Message) (ms : List Message) : wire (m :: ms) = m.frame ++ wire ms :=
  rfl

@[simp] theorem wire_append (ms ns : List Message) : wire (ms ++ ns) = wire ms ++ wire ns :=
  List.flatMap_append

/-- The bytes of the frame under way that are still to be written. -/
def Writing.rest : Writing → List UInt8
  | .busy rest => rest
  | .notStarted | .idle | .stopped => []

/-- The end mark of a queue, if the end has begun and what is queued is still to be written. -/
def Journal.endMark (c : Nat) (j : Journal) : List Outbound :=
  if j.cuts c = [true] then [.close] else []

namespace Connection

/-- Where the messages are that a connection has accepted. -/
inductive Carried (c : Nat) (x : Connection) (j : Journal) : Prop where
  | unused (hl : x.link = none) (ha : j.accepted c = []) (hw : j.written c = [])
  | running (ms : List Message) (hr : x.IsWriting)
      (hq : x.link.map Link.queue = some (ms.map .message ++ j.endMark c))
      (hb : wire (j.accepted c) = j.written c ++ x.writing.rest ++ wire ms)
  | stopped (hr : x.writing = .stopped) (hw : j.written c <+: wire (j.accepted c))
      (hd : j.cuts c = [true] → j.isBroken c = false → j.written c = wire (j.accepted c))

namespace Carried

variable {c : Nat} {x y : Connection} {j j' : Journal} {l : Link} {es : List Event}

/-! ## What it depends on -/

theorem congr (h : Carried c x j) (hq : y.link.map Link.queue = x.link.map Link.queue)
    (hw : y.writing = x.writing) : Carried c y j := by
  cases h with
  | unused hl ha hw' =>
    refine .unused ?_ ha hw'
    rw [hl] at hq
    simpa using hq
  | running ms hr hq' hb =>
    refine .running ms ?_ (hq.trans hq') (by rw [hw, hb])
    rwa [IsWriting, hw]
  | stopped hr hw' hd => exact .stopped (hw.trans hr) hw' hd

theorem journal (h : Carried c x j) (ha : j'.accepted c = j.accepted c)
    (hw : j'.written c = j.written c) (hc : j'.cuts c = j.cuts c)
    (hb : j'.isBroken c = j.isBroken c) : Carried c x j' := by
  cases h with
  | unused hl ha' hw' => exact .unused hl (ha.trans ha') (hw.trans hw')
  | running ms hr hq hb' =>
    refine .running ms hr ?_ (by rw [ha, hw, hb'])
    rw [hq, Journal.endMark, Journal.endMark, hc]
  | stopped hr hw' hd =>
    refine .stopped hr (by rwa [ha, hw]) ?_
    rwa [ha, hw, hc, hb]

/-- A loop that writes has everything before it. -/
theorem running_of_isWriting (h : Carried c x j) (hl : x.link = some l) (hw : x.IsWriting) :
    ∃ ms, l.queue = ms.map .message ++ j.endMark c ∧
      wire (j.accepted c) = j.written c ++ x.writing.rest ++ wire ms := by
  cases h with
  | unused hl' _ _ => cases hl.symm.trans hl'
  | running ms _ hq hb =>
    rw [hl] at hq
    exact ⟨ms, Option.some.inj hq, hb⟩
  | stopped hr _ _ => rcases hw with h | ⟨rest, h⟩ <;> cases h.symm.trans hr

theorem running_of_live (h : Carried c x j) (hx : Live c x j l) :
    ∃ ms, l.queue = ms.map .message ∧
      wire (j.accepted c) = j.written c ++ x.writing.rest ++ wire ms := by
  obtain ⟨ms, hq, hb⟩ := h.running_of_isWriting hx.link hx.writing
  refine ⟨ms, ?_, hb⟩
  rw [hq, Journal.endMark, hx.cuts]
  simp

/-! ## Messages into the queue -/

/-- A message that an open connection takes stands behind all others. -/
theorem accept (h : Carried c x j) (hx : Live c x j l) (m : Message) {k : Link}
    (hk : k.queue = l.queue ++ [.message m]) (ha : j'.accepted c = j.accepted c ++ [m])
    (hw : j'.written c = j.written c) (hc : j'.cuts c = j.cuts c) :
    Carried c { x with link := some k } j' := by
  obtain ⟨ms, hq, hb⟩ := h.running_of_live hx
  refine .running (ms ++ [m]) hx.writing ?_ ?_
  · simp [hk, hq, Journal.endMark, hc, hx.cuts]
  · rw [ha, hw, wire_append, hb]
    simp

theorem offer (h : Carried c x j) (hS : Sound c x j) (m : Message) :
    Carried c (x.offer m) (x.offered c m ++ j) := by
  rcases x.offer_cases c m with ⟨l, hl, ho, he, hx⟩ | ⟨-, he, hx⟩
  · rw [he, hx]
    obtain ⟨k, hk⟩ := hS.live_of_isOpen (by rw [isOpen_of_link hl, ho])
    obtain rfl := Option.some.inj (hl.symm.trans hk.link)
    exact h.accept hk m rfl (by simp [Journal.accepted]) rfl rfl
  · rw [he, hx]
    exact h

/-- A request that nobody waits for any more is written all the same. -/
theorem answer {l' : Link} {id : Id} {k : Nat} (h : Carried c x j) (hl : x.link = some l)
    (ha : l.answer id = some (k, l')) : Carried c { x with link := some l' } j := by
  obtain ⟨-, rfl⟩ := Link.answer_eq_some ha
  refine h.congr ?_ rfl
  simp [hl]

/-! ## Steps -/

/-- The loops carry the messages on, and lose nothing but what the choice at the end allows. -/
theorem turn (h : Carried c x j) (hS : Sound c x j) (ht : x.Turn c es y) :
    Carried c y (es ++ j) := by
  cases ht with
  | stream s => exact h.congr rfl rfl
  | giveBack hd => exact h.congr rfl rfl
  | read hr s => exact h.congr rfl rfl
  | stopReading hr he => exact h.congr rfl rfl
  | close hf => exact h.congr rfl rfl
  | @beginFrame l m q ha hw hl hq =>
    obtain ⟨ms, hq', hb⟩ := h.running_of_isWriting hl (.inl hw)
    cases ms with
    | nil =>
      -- The next entry is a message, so it is no end mark.
      rw [hq, Journal.endMark] at hq'
      split at hq' <;> simp at hq'
    | cons m' ms =>
      obtain ⟨hm, rfl⟩ := List.cons.inj (hq.symm.trans hq')
      obtain rfl := Outbound.message.inj hm
      refine .running ms (.inr ⟨_, rfl⟩) rfl ?_
      rw [List.nil_append, hb, hw]
      simp [Writing.rest]
  | @wrote rest n ha hw =>
    cases h with
    | unused hl _ _ =>
      rcases hS.not_unused_of_isWriting (.inr ⟨_, hw⟩) with ⟨l, hx⟩ | ⟨l, f, hx⟩
      · cases hx.link.symm.trans hl
      · cases hx.link.symm.trans hl
    | running ms hr hq hb =>
      refine .running ms (.inr ⟨_, rfl⟩) hq ?_
      rw [hw] at hb
      simpa [Journal.accepted, Journal.written, Writing.rest] using hb
    | stopped hr _ _ => cases hw.symm.trans hr
  | endFrame hw =>
    cases h with
    | unused hl ha hw' => exact .unused hl ha hw'
    | running ms hr hq hb =>
      refine .running ms (.inl rfl) hq ?_
      rw [hw] at hb
      simpa [Writing.rest] using hb
    | stopped hr _ _ => cases hw.symm.trans hr
  | stopAborted ha hw =>
    rcases hS.not_unused_of_isWriting hw with ⟨l, hx⟩ | ⟨l, flush, hx⟩
    · cases ha.symm.trans hx.aborted
    · obtain ⟨ms, -, hb⟩ := h.running_of_isWriting hx.link hw
      refine .stopped rfl ?_ fun hc => ?_
      · rw [List.nil_append, hb, List.append_assoc]
        exact List.prefix_append _ _
      · -- The loop was told to stop at once, so nothing was to be flushed.
        obtain rfl : flush = true := by simpa using hx.cuts.symm.trans hc
        cases ha.symm.trans hx.aborted
  | @stopDrained l q hw hl hq =>
    obtain ⟨ms, hq', hb⟩ := h.running_of_isWriting hl (.inl hw)
    cases ms with
    | nil =>
      have he : j.written c = wire (j.accepted c) := by
        rw [hb, hw]
        simp [Writing.rest]
      refine .stopped rfl ?_ fun _ _ => he
      show j.written c <+: wire (j.accepted c)
      exact he.symm ▸ List.prefix_rfl
    | cons m ms => exact absurd (hq.symm.trans hq') (by simp)
  | stopBroken hp hw =>
    rcases hS.not_unused_of_isWriting hw with ⟨l, hx⟩ | ⟨l, flush, hx⟩
    · simp [hx.phase, Phase.isLive] at hp
    · obtain ⟨ms, -, hb⟩ := h.running_of_isWriting hx.link hw
      refine .stopped rfl ?_ fun _ hn => ?_
      · show j.written c <+: wire (j.accepted c)
        rw [hb, List.append_assoc]
        exact List.prefix_append _ _
      · simp [Journal.isBroken] at hn

/-- Every move carries the messages on. -/
theorem step (h : Carried c x j) (hS : Sound c x j) (hm : ConnMove c x es y) :
    Carried c y (es ++ j) := by
  cases hm with
  | elsewhere e he =>
    exact h.journal (Journal.accepted_elsewhere he j) (Journal.written_elsewhere he j)
      (Journal.cuts_elsewhere he j) (Journal.isBroken_elsewhere he j)
  | turn ht => exact h.turn hS ht
  | start hd d =>
    -- A connection that was never connected has neither accepted nor written anything.
    have hu := hS.unused_of_disconnected hd
    cases h with
    | unused hl ha hw =>
      refine .running [] (.inl rfl) ?_ ?_
      · simp [Connection.start, Journal.endMark, hu.cuts]
      · simp [ha, hw, Connection.start, Writing.rest]
    | running ms hr hq hb => simp [hu.link] at hq
    | stopped hr _ _ => cases hr.symm.trans hu.writing
  | notify method params => exact h.offer hS _
  | @call l l' id k method params hl hs =>
    obtain ⟨ho, -, rfl⟩ := Link.start_eq_some hs
    obtain ⟨k', hk⟩ := hS.live_of_isOpen (by rw [isOpen_of_link hl, ho])
    obtain rfl := Option.some.inj (hl.symm.trans hk.link)
    exact h.accept hk (.request id method params) rfl (by simp [Journal.accepted]) rfl rfl
  | forget id =>
    rcases x.forget_cases c id with ⟨l, k, y, hl, hk, hy, he, hx⟩ | ⟨-, he, hx⟩
    · -- The entry goes first, which changes nothing about the queue; then the message is offered.
      have hSy : Sound c y j := by
        rw [hy]
        exact hS.withLink hl _ rfl (fun hn => by simp [hn, Link.without]) fun hq => hq
      have hy' : Carried c y j := h.congr (by simp [hy, hl]) (by rw [hy])
      rw [he, hx]
      exact hy'.offer hSy _
    · rw [he, hx]
      exact h
  | answer hr hl ha => exact (h.answer hl ha).journal rfl rfl rfl rfl
  | strand hl ha => exact (h.answer hl ha).journal rfl rfl rfl rfl
  | receive hr hm => exact h.journal rfl rfl rfl rfl
  | spawn hr r method params => exact h.journal rfl rfl rfl rfl
  | serve hr r => exact h.journal rfl rfl rfl rfl
  | @refuse id method params hr =>
    have h' : Carried c x ([.unserved c id method params,
        .received c (.request id method params)] ++ j) := h.journal rfl rfl rfl rfl
    rw [List.append_assoc]
    exact h'.offer (hS.journal rfl) _
  | finish r outcome => exact h.journal rfl rfl rfl rfl
  | reply r id outcome =>
    have h' : Carried c x ([.finished r c (some id) outcome] ++ j) := h.journal rfl rfl rfl rfl
    rw [List.append_assoc]
    exact h'.offer (hS.journal rfl) _
  | cut hp flush =>
    obtain ⟨l, hx⟩ := hS.live_of_isLive hp
    obtain ⟨ms, hq, hb⟩ := h.running_of_live hx
    refine .running ms hx.writing ?_ hb
    cases flush <;>
      simp [Connection.cut, hx.link, Link.close, hx.isOpen, hq, Journal.endMark, Journal.cuts,
        hx.cuts]

end Carried

/-! ## After the end has begun -/

section ended

variable {c : Nat} {x y : Connection} {j : Journal} {l : Link} {es : List Event}

/-- If nothing was to be flushed, nothing is written once the end has begun. -/
theorem Ended.mute (h : Ended c x j l false) (hm : ConnMove c x es y) :
    Journal.written c es = [] := by
  -- An aborted writer writes nothing, and no other move writes.
  cases hm with
  | elsewhere e he => exact Journal.written_elsewhere he []
  | turn ht =>
    cases ht with
    | wrote n ha hw => cases ha.symm.trans h.aborted
    | _ => rfl
  | notify method params =>
    rw [offered_of_not_open c _ h.isOpen_eq_false]
    rfl
  | forget id =>
    rcases x.forget_cases c id with ⟨k, n, z, -, -, -, he, -⟩ | ⟨-, he, -⟩
    · rw [he]
      rcases z.offer_cases c (cancelMessage id) with ⟨-, -, -, he, -⟩ | ⟨-, he, -⟩ <;>
        rw [he] <;> rfl
    · rw [he]
      rfl
  | refuse hr => exact absurd hr h.not_isReading
  | reply r id outcome =>
    rw [offered_of_not_open c _ h.isOpen_eq_false]
    rfl
  | _ => rfl

end ended

end Connection

end Parley

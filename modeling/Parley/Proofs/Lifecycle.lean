import Parley.Proofs.ConnMove

/-!
# The life of a connection

A connection is unused, or it is live, or its end has begun. In each of the three, its phase, its
link, its two loops and what they were told go together.

- `Connection.Unused`, `Connection.Live`, `Connection.Ended`: the three.
- `Connection.Sound`: a connection is one of them; `Sound.step` says that every move keeps this.
- `Connection.Ended.frozen`: once the end has begun, nothing comes in, nothing is accepted, and the
  end stays as it began.
-/

namespace Parley.Connection

/-! ## The three parts of a life -/

/-- Nobody has connected it. It may have been given back. -/
structure Unused (c : Nat) (x : Connection) (j : Journal) : Prop where
  phase : x.phase = .disconnected ∨ x.phase = .closed
  hasStream : x.phase = .disconnected → x.hasStream = true
  link : x.link = none
  reading : x.reading = .notStarted
  writing : x.writing = .notStarted
  shutdown : x.shutdown = false
  aborted : x.aborted = false
  cuts : j.cuts c = []

/-- It is connected, and both loops go on. -/
structure Live (c : Nat) (x : Connection) (j : Journal) (l : Link) : Prop where
  phase : x.phase = .connected
  link : x.link = some l
  isOpen : l.isOpen = true
  /-- There is no end mark yet. -/
  queue : .close ∉ l.queue
  reading : x.IsReading
  writing : x.IsWriting
  aborted : x.aborted = false
  cuts : j.cuts c = []

/-- Its end has begun; `flush` says whether what is queued is still to be written. -/
structure Ended (c : Nat) (x : Connection) (j : Journal) (l : Link) (flush : Bool) : Prop where
  phase : x.phase = .disconnecting ∨ (x.phase = .closed ∧ x.isFinished = true)
  link : x.link = some l
  isClosed : l.isOpen = false
  pending : l.pending = []
  shutdown : x.shutdown = true
  aborted : x.aborted = !flush
  cuts : j.cuts c = [flush]

/-- Every connection is in one of the three parts of its life. -/
inductive Sound (c : Nat) (x : Connection) (j : Journal) : Prop where
  | unused (h : Unused c x j)
  | live {l : Link} (h : Live c x j l)
  | ended {l : Link} {flush : Bool} (h : Ended c x j l flush)

theorem Ended.not_isLive {c : Nat} {x : Connection} {j : Journal} {l : Link} {flush : Bool}
    (h : Ended c x j l flush) : x.phase.isLive = false := by
  rcases h.phase with hp | ⟨hp, -⟩
  · rw [hp]
    rfl
  · rw [hp]
    rfl

namespace Sound

variable {c : Nat} {x y : Connection} {j j' : Journal} {l : Link} {es : List Event}

/-! ## Which part it is -/

theorem unused_of_disconnected (hS : Sound c x j) (h : x.phase = .disconnected) :
    Unused c x j := by
  cases hS with
  | unused hu => exact hu
  | live hl => cases h.symm.trans hl.phase
  | ended he =>
    rcases he.phase with hp | ⟨hp, -⟩
    · cases h.symm.trans hp
    · cases h.symm.trans hp

theorem live_of_isLive (hS : Sound c x j) (h : x.phase.isLive = true) : ∃ l, Live c x j l := by
  cases hS with
  | unused hu =>
    rcases hu.phase with hp | hp
    · simp [hp, Phase.isLive] at h
    · simp [hp, Phase.isLive] at h
  | live hl => exact ⟨_, hl⟩
  | ended he => cases h.symm.trans he.not_isLive

theorem live_of_isReading (hS : Sound c x j) (h : x.IsReading) : ∃ l, Live c x j l := by
  obtain ⟨⟨s, hs⟩, hd⟩ := h
  cases hS with
  | unused hu => cases hs.symm.trans hu.reading
  | live hl => exact ⟨_, hl⟩
  | ended he => cases hd.symm.trans he.shutdown

theorem live_of_isOpen (hS : Sound c x j) (h : x.isOpen = true) : ∃ l, Live c x j l := by
  cases hS with
  | unused hu => simp [Connection.isOpen, hu.link] at h
  | live hl => exact ⟨_, hl⟩
  | ended he =>
    rw [isOpen_of_link he.link, he.isClosed] at h
    cases h

/-- The loop that reads is told to stop when the end begins. -/
theorem cuts_of_shutdown (hS : Sound c x j) (h : x.shutdown = true) : j.cuts c ≠ [] := by
  cases hS with
  | unused hu => cases h.symm.trans hu.shutdown
  | live hl => cases h.symm.trans hl.reading.2
  | ended he =>
    rw [he.cuts]
    exact List.cons_ne_nil _ _

/-- Who was connected and is not open any more is at its end. -/
theorem shutdown_of_not_open (hS : Sound c x j) (hl : x.link = some l) (ho : x.isOpen = false) :
    x.shutdown = true := by
  cases hS with
  | unused hu => cases hl.symm.trans hu.link
  | live hv =>
    rw [isOpen_of_link hv.link, hv.isOpen] at ho
    cases ho
  | ended he => exact he.shutdown

/-- A loop that has been started belongs to a connection that was connected. -/
theorem not_unused_of_isWriting (hS : Sound c x j) (h : x.IsWriting) :
    (∃ l, Live c x j l) ∨ ∃ l flush, Ended c x j l flush := by
  cases hS with
  | unused hu => rcases h with h | ⟨rest, h⟩ <;> cases h.symm.trans hu.writing
  | live hl => exact .inl ⟨_, hl⟩
  | ended he => exact .inr ⟨_, _, he⟩

/-! ## What keeps it -/

/-- What the journal says about the end of the connection is all that matters. -/
theorem journal (hS : Sound c x j) (h : j'.cuts c = j.cuts c) : Sound c x j' := by
  cases hS with
  | unused hu => exact .unused { hu with cuts := h.trans hu.cuts }
  | live hl => exact .live { hl with cuts := h.trans hl.cuts }
  | ended he => exact .ended { he with cuts := h.trans he.cuts }

/-- The queue and the table of a link may change, but nobody waits once it is closed. -/
theorem withLink (hS : Sound c x j) (hl : x.link = some l) (k : Link)
    (ho : k.isOpen = l.isOpen) (hn : l.pending = [] → k.pending = [])
    (hq : .close ∉ l.queue → .close ∉ k.queue) : Sound c { x with link := some k } j := by
  cases hS with
  | unused hu => cases hl.symm.trans hu.link
  | live h =>
    obtain rfl := Option.some.inj (hl.symm.trans h.link)
    exact .live { h with link := rfl, isOpen := ho.trans h.isOpen, queue := hq h.queue }
  | ended h =>
    obtain rfl := Option.some.inj (hl.symm.trans h.link)
    exact .ended { h with
      link := rfl, isClosed := ho.trans h.isClosed, pending := hn h.pending }

theorem offer (hS : Sound c x j) (m : Message) : Sound c (x.offer m) j := by
  rcases x.offer_cases c m with ⟨l, hl, -, -, hx⟩ | ⟨-, -, hx⟩
  · rw [hx]
    exact hS.withLink hl _ rfl id fun hq => by simpa using hq
  · rw [hx]
    exact hS

theorem forget (hS : Sound c x j) (id : Id) : Sound c (x.forget id) j := by
  rcases x.forget_cases c id with ⟨l, k, y, hl, -, rfl, -, hx⟩ | ⟨-, -, hx⟩
  · rw [hx]
    refine (hS.withLink hl { l with pending := Link.without id l.pending } rfl ?_
      fun hq => hq).offer _
    intro hn
    simp [hn, Link.without]
  · rw [hx]
    exact hS

/-- A loop that writes may be at any place in its work. -/
theorem withWriting (hS : Sound c x j) (hw : x.IsWriting) {v : Writing}
    (hv : v = .idle ∨ ∃ rest, v = .busy rest) : Sound c { x with writing := v } j := by
  rcases hS.not_unused_of_isWriting hw with ⟨l, hl⟩ | ⟨l, flush, he⟩
  · exact .live { hl with writing := hv }
  · refine .ended { he with phase := he.phase.imp_right (And.imp_right fun hf => ?_) }
    rcases hw with h | ⟨rest, h⟩ <;> simp [isFinished, h] at hf

/-- The loop that writes stops once the end has begun. -/
theorem stopWriting (hS : Sound c x j) (hw : x.IsWriting) (hp : x.phase.isLive = false) :
    Sound c x.stopWriting j := by
  rcases hS.not_unused_of_isWriting hw with ⟨l, hl⟩ | ⟨l, flush, he⟩
  · simp [hl.phase, Phase.isLive] at hp
  · refine .ended (l := { l with queue := [] }) { he with
      phase := he.phase.imp_right (And.imp_right fun hf => ?_)
      link := by simp only [Connection.stopWriting, he.link, Option.map_some] }
    rcases hw with h | ⟨rest, h⟩ <;> simp [isFinished, h] at hf

end Sound

/-! ## Steps -/

/-- What is put into the queue says nothing about the end of a connection. -/
theorem cuts_offered (x : Connection) (c d : Nat) (m : Message) (es j : Journal) :
    Journal.cuts d (x.offered c m ++ es ++ j) = Journal.cuts d (es ++ j) := by
  rcases x.offer_cases c m with ⟨l, -, -, he, -⟩ | ⟨-, he, -⟩
  · rw [he]
    rfl
  · rw [he]
    rfl

theorem cuts_forgot (x : Connection) (c d : Nat) (id : Id) (j : Journal) :
    Journal.cuts d (x.forgot c id ++ j) = Journal.cuts d j := by
  rcases x.forget_cases c id with ⟨l, k, y, -, -, -, he, -⟩ | ⟨-, he, -⟩
  · rw [he]
    simpa using y.cuts_offered c d (cancelMessage id) [] j
  · rw [he]
    rfl

namespace Sound

variable {c : Nat} {x y : Connection} {j : Journal} {es : List Event}

/-- The loops keep the parts of a life apart. -/
theorem turn (hS : Sound c x j) (h : x.Turn c es y) : Sound c y (es ++ j) := by
  cases h with
  | stream s =>
    cases hS with
    | unused hu => exact .unused { hu with }
    | live hl => exact .live { hl with }
    | ended he => exact .ended { he with }
  | giveBack h =>
    exact .unused { hS.unused_of_disconnected h with
      phase := .inr rfl
      hasStream := by rintro ⟨⟩ }
  | read h s =>
    obtain ⟨l, hl⟩ := hS.live_of_isReading h
    exact .live { hl with reading := ⟨⟨s, rfl⟩, h.2⟩ }
  | stopReading h he =>
    -- A loop that reads goes on as long as its connection lasts.
    cases hS with
    | unused hu => cases h.symm.trans hu.reading
    | live hl =>
      rcases he with he | he
      · cases he.symm.trans hl.reading.2
      · simp [hl.phase, Phase.isLive] at he
    | ended hd =>
      refine .ended { hd with phase := hd.phase.imp_right (And.imp_right fun hf => ?_) }
      simp_all [isFinished]
  | @beginFrame l m q ha hw hl hq =>
    have hc : .close ∉ l.queue → .close ∉ q := fun hc hm => hc (by simp [hq, hm])
    exact (hS.withLink hl { l with queue := q } rfl id hc).withWriting (.inl hw) (.inr ⟨_, rfl⟩)
  | wrote n ha hw =>
    exact (hS.withWriting (.inr ⟨_, hw⟩) (.inr ⟨_, rfl⟩)).journal rfl
  | endFrame hw => exact hS.withWriting (.inr ⟨_, hw⟩) (.inl rfl)
  | stopAborted ha hw =>
    refine hS.stopWriting hw ?_
    cases hS with
    | unused hu => cases ha.symm.trans hu.aborted
    | live hl => cases ha.symm.trans hl.aborted
    | ended he => exact he.not_isLive
  | stopDrained hw hl hq =>
    -- The end mark is in the queue only once the end has begun.
    refine hS.stopWriting (.inl hw) ?_
    cases hS with
    | unused hu => cases hl.symm.trans hu.link
    | live h =>
      obtain rfl := Option.some.inj (hl.symm.trans h.link)
      exact absurd h.queue (by simp [hq])
    | ended he => exact he.not_isLive
  | stopBroken hp hw => exact (hS.stopWriting hw hp).journal rfl
  | close h =>
    cases hS with
    | unused hu => simp [isFinished, hu.reading] at h
    | live hl =>
      obtain ⟨s, hs⟩ := hl.reading.1
      simp [isFinished, hs] at h
    | ended he => exact .ended { he with phase := .inr ⟨rfl, h⟩ }

/-- A request that nobody waits for any more. -/
theorem answer {l l' : Link} {id : Id} {k : Nat} (hS : Sound c x j) (hl : x.link = some l)
    (ha : l.answer id = some (k, l')) : Sound c { x with link := some l' } j := by
  obtain ⟨-, rfl⟩ := Link.answer_eq_some ha
  have hn : l.pending = [] → Link.without id l.pending = [] := fun hn => by
    simp [hn, Link.without]
  exact hS.withLink hl { l with pending := Link.without id l.pending } rfl hn fun hq => hq

/-- Every move keeps the parts of a life apart. -/
theorem step (hS : Sound c x j) (h : ConnMove c x es y) : Sound c y (es ++ j) := by
  -- Most moves leave phase, link and loops alone; what changes the life is the start and the cut.
  cases h with
  | elsewhere e he => exact hS.journal (Journal.cuts_elsewhere he j)
  | turn h => exact hS.turn h
  | start h d =>
    have hu := hS.unused_of_disconnected h
    exact .live
      { phase := rfl, link := rfl, isOpen := rfl, queue := by simp
        reading := ⟨⟨_, rfl⟩, hu.shutdown⟩, writing := .inl rfl, aborted := hu.aborted
        cuts := hu.cuts }
  -- A message goes into the queue of an open link, and a closed link takes none.
  | notify method params =>
    exact (hS.offer _).journal (by simpa using x.cuts_offered c c _ [] j)
  | call k hl hs =>
    obtain ⟨ho, -, rfl⟩ := Link.start_eq_some hs
    obtain ⟨l', h⟩ := hS.live_of_isOpen (by rw [isOpen_of_link hl, ho])
    obtain rfl := Option.some.inj (hl.symm.trans h.link)
    exact .live { h with link := rfl, isOpen := ho, queue := by simpa using h.queue }
  | forget id => exact (hS.forget id).journal (x.cuts_forgot c c id j)
  -- An answer takes an entry out of the table and nothing else.
  | answer h hl ha => exact (hS.answer hl ha).journal rfl
  | strand hl ha => exact (hS.answer hl ha).journal rfl
  | receive h hm => exact hS.journal rfl
  | spawn h r method params => exact hS.journal rfl
  | serve h r => exact hS.journal rfl
  | refuse h =>
    refine (hS.offer _).journal ?_
    rw [x.cuts_offered]
    rfl
  | finish r outcome => exact hS.journal rfl
  | reply r id outcome =>
    refine (hS.offer _).journal ?_
    rw [x.cuts_offered]
    rfl
  -- Only what lives is cut, so this is its only cut.
  | cut h flush =>
    obtain ⟨l, hl⟩ := hS.live_of_isLive h
    exact .ended (l := l.close flush)
      { phase := .inl rfl, link := by simp [Connection.cut, hl.link], isClosed := rfl
        pending := rfl, shutdown := rfl, aborted := rfl
        cuts := by simp [Journal.cuts, hl.cuts] }

end Sound

/-! ## After the end has begun -/

section ended

variable {c : Nat} {x y : Connection} {j : Journal} {l : Link} {flush : Bool} {es : List Event}

theorem Ended.isOpen_eq_false (h : Ended c x j l flush) : x.isOpen = false := by
  rw [isOpen_of_link h.link, h.isClosed]

theorem Ended.not_isReading (h : Ended c x j l flush) : ¬ x.IsReading := fun hr =>
  by cases hr.2.symm.trans h.shutdown

/-- Once the end has begun, nothing is accepted, nothing comes in, and the end does not begin a
second time. -/
theorem Ended.quiet (h : Ended c x j l flush) (hm : ConnMove c x es y) :
    Journal.accepted c es = [] ∧ Journal.received c es = [] ∧ Journal.cuts c es = [] := by
  -- A connection that has ended does not read, sends nothing, and has no table to answer from.
  cases hm with
  | elsewhere e he =>
    exact ⟨Journal.accepted_elsewhere he [], Journal.received_elsewhere he [],
      Journal.cuts_elsewhere he []⟩
  | turn ht => cases ht <;> exact ⟨rfl, rfl, rfl⟩
  | start hd d => rcases h.phase with hp | ⟨hp, -⟩ <;> cases hd.symm.trans hp
  | notify method params =>
    rw [offered_of_not_open c _ h.isOpen_eq_false]
    exact ⟨rfl, rfl, rfl⟩
  | call k hl hs =>
    obtain rfl := Option.some.inj (hl.symm.trans h.link)
    cases (Link.start_eq_some hs).1.symm.trans h.isClosed
  | forget id =>
    rcases x.forget_cases c id with ⟨l', k, y, hl, hk, -, -, -⟩ | ⟨-, he, -⟩
    · obtain rfl := Option.some.inj (hl.symm.trans h.link)
      rw [h.pending] at hk
      cases hk
    · rw [he]
      exact ⟨rfl, rfl, rfl⟩
  | answer hr hl ha => exact absurd hr h.not_isReading
  | strand hl ha => exact ⟨rfl, rfl, rfl⟩
  | receive hr hm => exact absurd hr h.not_isReading
  | spawn hr r method params => exact absurd hr h.not_isReading
  | serve hr r => exact absurd hr h.not_isReading
  | refuse hr => exact absurd hr h.not_isReading
  | finish r outcome => exact ⟨rfl, rfl, rfl⟩
  | reply r id outcome =>
    rw [offered_of_not_open c _ h.isOpen_eq_false]
    exact ⟨rfl, rfl, rfl⟩
  | cut hp f => cases hp.symm.trans h.not_isLive

/-- Once the end has begun, it stays so, with the choice that was made first. -/
theorem Ended.step (h : Ended c x j l flush) (hm : ConnMove c x es y) :
    ∃ k, Ended c y (es ++ j) k flush := by
  have hc : Journal.cuts c (es ++ j) = [flush] := by
    rw [Journal.cuts_append, h.cuts, (h.quiet hm).2.2, List.append_nil]
  cases Sound.step (.ended h) hm with
  | unused hu => cases hc.symm.trans hu.cuts
  | live hl => cases hc.symm.trans hl.cuts
  | @ended k f he =>
    obtain rfl : flush = f := by simpa using hc.symm.trans he.cuts
    exact ⟨k, he⟩

/-- **The cut.** In every series of moves after the end has begun, nothing more is accepted, nothing
more comes in, and the end stays as it began. -/
theorem Ended.frozen (h : Ended c x j l flush) (hm : ConnMoves c x es y) :
    (∃ k, Ended c y (es ++ j) k flush) ∧ Journal.accepted c es = [] ∧
      Journal.received c es = [] := by
  induction hm with
  | refl => exact ⟨⟨l, h⟩, rfl, rfl⟩
  | tail hm hstep ih =>
    obtain ⟨⟨k, hk⟩, ha, hr⟩ := ih
    have hq := hk.quiet hstep
    refine ⟨?_, ?_, ?_⟩
    · rw [List.append_assoc]
      exact hk.step hstep
    · rw [Journal.accepted_append, ha, hq.1, List.append_nil]
    · rw [Journal.received_append, hr, hq.2.1, List.append_nil]

end ended

end Parley.Connection

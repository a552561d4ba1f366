import Parley.Proofs.Lifetime
import Parley.Proofs.Replies
import Parley.Proofs.Resolution
import Parley.Proofs.Stream
import Parley.Proofs.Whole

/-!
# Two connections over a pair of pipes

What one connection accepts and the other one hands on are two ends of a channel. Between them lie
the queue, the frame that is half written, the bytes in the pipe and the frame that is half read; at
every time the messages that came out are the first ones that went in, in their plain forms.

- `Message.IsReadable`: the messages that a reader with some limit takes.
- `readMessages_wire_isPrefix`, `readMessages_wire`: what is read of the frames of some messages.
- `Network.Joined`: two connections that were made over a pair of pipes.
- `Joined.takesIn`: one of them takes in what the other one has written.
- `Joined.received_isPrefix`: what comes out of the channel went into it, in order.
-/

namespace Parley

/-- What a message has to be in order to be taken by a reader with this limit: its values are exact,
and its body is neither nested too deep nor too long. -/
structure Message.IsReadable (limit : Nat) (m : Message) : Prop where
  exact : ∀ v ∈ m.payloads, v.all Json.isExact = true
  depth : m.toJson.depth ≤ Json.maxDepth
  size : m.toBytes.length ≤ limit
  /-- Lengths have 64 bits. -/
  word : m.toBytes.length < 0x10000000000000000

namespace Frame

open Network (messagesIn messagesIn_append messagesIn_append_of_bad map_fst_readMessages)

variable {limit : Nat} {ms : List Message}

/-! ## A first part of a string -/

theorem messagesIn_mono {a b : List (List UInt8)} (h : a <+: b) :
    messagesIn a <+: messagesIn b := by
  obtain ⟨more, rfl⟩ := h
  cases hb : a.findSome? Network.bodyError? with
  | none =>
    rw [messagesIn_append hb]
    exact List.prefix_append _ _
  | some e => simp [messagesIn_append_of_bad hb]

/-- What is read of a first part is read of the whole. -/
theorem readMessages_mono (limit : Nat) {bs cs : List UInt8} (h : bs <+: cs) :
    (readMessages limit bs).1.map Prod.fst <+: (readMessages limit cs).1.map Prod.fst := by
  obtain ⟨more, rfl⟩ := h
  rw [map_fst_readMessages, map_fst_readMessages]
  rcases hf : Intake.start.feed limit bs with ⟨bodies, e | s⟩
  · simp [Intake.feed_append_of_error hf]
  · rw [Intake.feed_append_of_ok hf]
    exact messagesIn_mono (List.prefix_append _ _)

/-! ## The frames of some messages -/

/-- Of the frames of some messages nothing else is read than these messages, in order, up to the
first one that the reader does not take. -/
theorem readMessages_wire_isPrefix (limit : Nat)
    (hx : ∀ m ∈ ms, ∀ v ∈ m.payloads, v.all Json.isExact = true) :
    (readMessages limit (wire ms)).1.map Prod.fst <+: ms.map Message.plain := by
  -- The first message is read, or the reading stops there.
  induction ms with
  | nil =>
    rw [wire_nil, readMessages_nil]
    exact List.nil_prefix
  | cons m ms ih =>
    obtain ⟨hm, hms⟩ := List.forall_mem_cons.mp hx
    by_cases hsize : m.toBytes.length < 0x10000000000000000 ∧ m.toBytes.length ≤ limit
    · by_cases hdeep : Json.maxDepth < m.toJson.depth
      · obtain ⟨e, he, -⟩ := Message.ofBytes_deep hm hdeep
        have hframe : nextFrame limit (frame m.toBytes ++ wire ms) = _ :=
          nextFrame_frame hsize.1 hsize.2
        rw [wire_cons, readMessages, Message.frame, readFrames_frame hframe]
        simp only [decodeAll, he]
        exact List.nil_prefix
      · have hbody := Message.ofBytes_shallow hm (Nat.not_lt.mp hdeep)
        rw [wire_cons, readMessages_body hsize.1 hsize.2 hbody, List.map_cons, List.map_cons]
        exact List.cons_prefix_cons.mpr ⟨rfl, ih hms⟩
    · obtain ⟨e, he⟩ : ∃ e, nextFrame limit (frame m.toBytes ++ wire ms) = .error e :=
        nextFrame_refused hsize
      have hread : readMessages limit (m.frame ++ wire ms) = ([], some e) := by
        rw [readMessages, Message.frame, readFrames_error he]
        rfl
      rw [wire_cons, hread]
      exact List.nil_prefix

/-- Messages that the reader takes are all read, and then the string has ended in order. -/
theorem readMessages_wire (h : ∀ m ∈ ms, m.IsReadable limit) :
    (readMessages limit (wire ms)).1.map Prod.fst = ms.map Message.plain ∧
      (readMessages limit (wire ms)).2 = none := by
  induction ms with
  | nil =>
    rw [wire_nil, readMessages_nil]
    exact ⟨rfl, rfl⟩
  | cons m ms ih =>
    obtain ⟨hm, hms⟩ := List.forall_mem_cons.mp h
    obtain ⟨hread, hstop⟩ := ih hms
    have hbody := Message.ofBytes_shallow hm.exact hm.depth
    rw [wire_cons, readMessages_body hm.word hm.size hbody, List.map_cons, hread]
    exact ⟨rfl, hstop⟩

end Frame

namespace Network

open Parley.Frame

variable {w : Network} {c d : Nat}

/-! ## Joined connections -/

/-- Two connections that were made together, over a pair of pipes, in some use of a network. -/
def Joined (w : Network) (c d : Nat) : Prop :=
  ∃ (before actions : List Action) (capacity : Nat) (first second : Config),
    w = run {} (before ++ .openPipes capacity first second :: actions) ∧
      (c = (run {} before).conns.length ∧ d = c + 1 ∨
        d = (run {} before).conns.length ∧ c = d + 1)

namespace Joined

theorem symm (h : w.Joined c d) : w.Joined d c := by
  obtain ⟨before, actions, capacity, first, second, hw, hcd⟩ := h
  exact ⟨before, actions, capacity, first, second, hw, hcd.symm⟩

theorem reachable (h : w.Joined c d) : Reachable w := by
  obtain ⟨before, actions, capacity, first, second, hw, -⟩ := h
  exact ⟨_, hw⟩

/-- They stay joined, whatever is done. -/
theorem run (h : w.Joined c d) (actions : List Action) : (Network.run w actions).Joined c d := by
  obtain ⟨before, others, capacity, first, second, rfl, hcd⟩ := h
  refine ⟨before, others ++ actions, capacity, first, second, ?_, hcd⟩
  rw [Network.run, Network.run, Network.run, ← List.foldl_append, List.append_assoc,
    List.cons_append]

/-- Each of them reads from the pipe that the other one writes into, and knows where in the string
it is. -/
theorem tuned (h : w.Joined c d) : ∃ (i o : Nat) (x y : Config),
    w.Tuned c ⟨x, some (i, o), {}⟩ ∧ w.Tuned d ⟨y, some (o, i), {}⟩ ∧ w.Alert d := by
  obtain ⟨before, actions, capacity, first, second, rfl, hcd⟩ := h
  obtain ⟨⟨hx, hxa⟩, hy, hya⟩ := tuned_run_openPipes before actions capacity first second
  rcases hcd with ⟨rfl, rfl⟩ | ⟨rfl, rfl⟩
  · exact ⟨_, _, _, _, hx, hy, hya⟩
  · exact ⟨_, _, _, _, hy, hx, hxa⟩

/-- One of them takes in what the other one has written. When it finds the end of its stream while
it is not closed itself, nothing more will be written. -/
theorem takesIn (h : w.Joined c d) : ∃ y, w.conns[d]? = some y ∧
    TakesIn w d y.config (w.journal.written c) (w.takeInput d).2.1 ∧
    ((w.takeInput d).2.1 = .ended → w.isMute c = true ∨ w.isClosed d = true) := by
  obtain ⟨i, o, config, config', hc, hd, ha⟩ := h.tuned
  have hw := h.reachable
  obtain ⟨p, hp, hreader, hwriter, hwait⟩ := hd.pipe hc
  have hsequel : (w.takeInput d).2.1 = w.pipeSequel o := congrArg Prod.snd hwait
  obtain ⟨y, hy, hyc, -⟩ := hd.conn
  refine ⟨y, hy, ?_, ?_⟩
  · rw [hyc, hsequel]
    exact hd.takesIn_pipes ha hc hw
  · intro he
    have hclosed : p.closed = true := by
      rw [hsequel, pipeSequel, hp, Option.any_some] at he
      split at he
      · next hp => exact hp
      · cases he
    have hreleased := (hw.released.pipe hp).mp hclosed
    rwa [hreader, hwriter] at hreleased

/-- **What comes out of the channel** went into it: no message is lost between two others, none is
handed on twice, none comes before an earlier one, and none is altered but for its plain form. -/
theorem received_isPrefix (h : w.Joined c d)
    (hx : ∀ m ∈ w.journal.accepted c, ∀ v ∈ m.payloads, v.all Json.isExact = true) :
    w.journal.received d <+: (w.journal.accepted c).map Message.plain := by
  obtain ⟨y, -, htakes, -⟩ := h.takesIn
  obtain ⟨read, hread, hrec⟩ := htakes.soFar
  have hwritten : w.journal.written c <+: wire (w.journal.accepted c) :=
    h.reachable.written_isPrefix c
  rw [hrec]
  exact (readMessages_mono _ (hread.trans hwritten)).trans (readMessages_wire_isPrefix _ hx)

end Joined

/-! ## The end of the stream -/

/-- The bytes that the body of a frame may have that a connection reads. -/
def limit (w : Network) (c : Nat) : Nat :=
  (w.conns[c]?).elim 0 fun x => x.config.maxContentLength

/-- The loop that reads of `d` has found the end of the stream that `c` writes, in a turn before
which no end of `d` had begun. -/
def HasReadEnd (w : Network) (c d : Nat) : Prop :=
  ∃ (u : Network) (q : List Task) (later : List Action), u.Joined c d ∧ u.IsConnected d ∧
    u.ready = .reader d :: q ∧ (u.takeInput d).2.1 = .ended ∧
    w = Network.run u (.settle 1 :: later)

theorem limit_run {u : Network} (hu : Reachable u) {x : Connection} (hx : u.conns[c]? = some x)
    (actions : List Action) : (run u actions).limit c = x.config.maxContentLength := by
  obtain ⟨y, es, hy, -, hm⟩ := (path_run u actions).conn hu.housed hx
  rw [limit, hy, Option.elim_some, hm.config]

/-- A connection that is connected is not closed. -/
theorem IsConnected.isClosed (h : w.IsConnected c) : w.isClosed c = false := by
  obtain ⟨x, hx, hp⟩ := h
  rw [Network.isClosed, halts_of_conn hx, Option.any_some]
  show decide (x.phase = .closed) = false
  rw [hp]
  rfl

/-- What a connection has written that will write nothing more, if its end began with a flush and
writing never failed. -/
theorem Reachable.written_of_isMute (h : Reachable w) (hm : w.isMute c = true)
    (hc : (w.journal.cuts c).head? = some true) (hb : w.journal.isBroken c = false) :
    w.journal.written c = wire (w.journal.accepted c) := by
  obtain ⟨x, l, hx, he⟩ := h.ended hc
  have hs : x.writing = .stopped := by
    rw [isMute, halts_of_conn hx, Option.any_some, Connection.Halts.isMute, Bool.or_eq_true] at hm
    rcases hm with hw | hp
    · exact of_decide_eq_true hw
    · have hp : x.phase = .closed := of_decide_eq_true hp
      obtain ⟨-, hf⟩ := he.phase.resolve_left fun hd => by cases hp.symm.trans hd
      exact of_decide_eq_true (Bool.and_eq_true_iff.mp hf).2
  cases (h.carried.conn c x hx).2 with
  | unused hl _ _ => cases he.link.symm.trans hl
  | running _ hw _ _ => rcases hw with hw | ⟨rest, hw⟩ <;> cases hs.symm.trans hw
  | stopped _ _ hd => exact hd he.cuts hb

/-- Replies that are accepted have a result or a failure and not both, so an accepted message has
its plain form, unless it is a failure with data that are `null`. -/
theorem Reachable.plain_accepted (h : Reachable w) {m : Message} (hm : m ∈ w.journal.accepted c)
    (hf : ∀ f ∈ m.failure?, f.data ≠ some .null) : m.plain = m := by
  refine Message.plain_of_isDefinite ⟨?_, hf⟩
  rintro r rfl
  have hr : r ∈ w.journal.replies c := List.mem_filterMap.mpr ⟨.reply r, hm, rfl⟩
  rw [h.served.replies c] at hr
  cases Journal.origin_of_mem_due hr with
  | refused => rintro ⟨⟩
  | @served n id outcome =>
    cases outcome with
    | ok v => rintro ⟨⟩
    | error f => rintro ⟨⟩

/-- The end of a connection that will write nothing more has begun already, if it ever begins. -/
theorem Reachable.cuts_of_isMute (h : Reachable w) (hm : w.isMute c = true) {actions : List Action}
    {flush : Bool} (hc : ((Network.run w actions).journal.cuts c).head? = some flush) :
    (w.journal.cuts c).head? = some flush := by
  obtain ⟨x, hx, hmute⟩ : ∃ x, w.conns[c]? = some x ∧ x.halts.isMute = true := by
    cases hx : w.conns[c]? with
    | some x =>
      rw [isMute, halts_of_conn hx] at hm
      exact ⟨x, rfl, hm⟩
    | none => simp [isMute, halts, hx] at hm
  rw [Connection.Halts.isMute, Bool.or_eq_true] at hmute
  have hS := h.sound.conn c x hx
  cases h.sound.conn c x hx with
  | unused hu =>
    -- It was given back, so it will never be connected.
    have hp : x.phase = .closed := by
      rcases hmute with hw | hp
      · cases hu.writing.symm.trans (of_decide_eq_true hw)
      · exact of_decide_eq_true hp
    obtain ⟨y, l, hy, he⟩ := (h.run actions).ended hc
    obtain ⟨before, -, z, hz, hzp⟩ := link_run h hx hu.link actions hy (by rw [he.link]; rintro ⟨⟩)
    obtain ⟨z', es, hz', -, hmoves⟩ := (path_run w before).conn h.housed hx
    obtain rfl := Option.some.inj (hz.symm.trans hz')
    cases hzp.symm.trans (hS.closed_moves hp hmoves).1
  | live hl =>
    rcases hmute with hw | hp
    · have hw : x.writing = .stopped := of_decide_eq_true hw
      rcases hl.writing with hi | ⟨rest, hi⟩
      · cases hi.symm.trans hw
      · cases hi.symm.trans hw
    · cases hl.phase.symm.trans (of_decide_eq_true hp)
  | ended he =>
    obtain ⟨y, es, -, hj, -⟩ := (path_run w actions).conn h.housed hx
    rw [hj, Journal.cuts_append, he.cuts] at hc
    rw [he.cuts]
    exact hc

/-- **Nothing is lost.** A connection that has read the end of the stream has handed on everything
that the other one has accepted, if the other one's end began with a flush and writing never
failed. -/
theorem HasReadEnd.received_eq (h : w.HasReadEnd c d)
    (hm : ∀ m ∈ w.journal.accepted c, m.IsReadable (w.limit d))
    (hc : (w.journal.cuts c).head? = some true) (hb : w.journal.isBroken c = false) :
    w.journal.received d = (w.journal.accepted c).map Message.plain := by
  obtain ⟨u, q, later, hj, hd, hq, hend, rfl⟩ := h
  have hu := hj.reachable
  obtain ⟨y, hy, htakes, hended⟩ := hj.takesIn
  have hmute : u.isMute c = true := by
    have hor := hended hend
    rwa [hd.isClosed, or_iff_left Bool.false_ne_true] at hor
  have hcut := hu.cuts_of_isMute hmute hc
  -- Whatever comes later, nothing is accepted any more, and nothing is handed on.
  obtain ⟨x, l, hx, he⟩ := hu.ended hcut
  obtain ⟨_, es, -, hjournal, hmoves⟩ := (path_run u (.settle 1 :: later)).conn hu.housed hx
  have haccepted : (Network.run u (.settle 1 :: later)).journal.accepted c =
      u.journal.accepted c := by
    rw [hjournal, Journal.accepted_append, (he.frozen hmoves).2.1, List.append_nil]
  have hunbroken : u.journal.isBroken c = false := by
    rw [hjournal, Journal.isBroken_append, Bool.or_eq_false_iff] at hb
    exact hb.2
  rw [haccepted, limit_run hu hy] at hm
  have hwritten := hu.written_of_isMute hmute hcut hunbroken
  obtain ⟨hread, hstop⟩ := readMessages_wire hm
  obtain ⟨hrec, -, -, hfrozen⟩ := htakes.turn hd q hq
  have hverdict : verdict y.config.maxContentLength .start (u.journal.written c)
      (u.takeInput d).2.1 = .ended := by
    rw [hend, verdict_ended, hwritten, hstop]
    rfl
  have hlater := hfrozen (by rw [hverdict]; rintro ⟨⟩) later
  rw [haccepted, ← hread, ← hwritten, ← hrec]
  exact hlater

/-- **An ordered and reliable channel.** Two connections are joined by a pair of pipes of any
capacity. Whatever else is done, what one of them has handed on is at every time the beginning of
what the other one has accepted; and it is all of that when its loop that reads has found the end of
the stream before its own end began, the other one's end began with a flush, and writing never
failed there. -/
theorem delivers_in_order (hj : w.Joined c d)
    (hx : ∀ m ∈ w.journal.accepted c, ∀ v ∈ m.payloads, v.all Json.isExact = true)
    (hn : ∀ m ∈ w.journal.accepted c, ∀ f ∈ m.failure?, f.data ≠ some .null) :
    w.journal.received d <+: w.journal.accepted c ∧
    ((∀ m ∈ w.journal.accepted c, m.IsReadable (w.limit d)) →
      (w.journal.cuts c).head? = some true → w.journal.isBroken c = false →
      w.HasReadEnd c d → w.journal.received d = w.journal.accepted c) := by
  have hplain : (w.journal.accepted c).map Message.plain = w.journal.accepted c :=
    (List.map_congr_left fun m hm => hj.reachable.plain_accepted hm (hn m hm)).trans (List.map_id _)
  constructor
  · have hprefix := hj.received_isPrefix hx
    rwa [hplain] at hprefix
  · intro hm hc hb hend
    rw [hend.received_eq hm hc hb, hplain]

/-- Two notifications through a pipe that holds sixteen bytes, before an end that flushes. -/
theorem delivers_in_order_flushed :
    let u := run {} [.openPipes 16 {} {}, .openDispatcher, .openDispatcher, .connect 0 0,
      .connect 1 1, .notify (.conn 0) "a" (.ok .null), .notify (.conn 0) "b" (.ok (.bool true)),
      .disconnect 0 true, .settle 17]
    let w := run u [.settle 1]
    u.journal.received 1 = [.notification "a" .null] ∧
      w.journal.received 1 = w.journal.accepted 0 ∧
      w.journal.accepted 0 = [.notification "a" .null, .notification "b" (.bool true)] := by
  intro u w
  have hj : u.Joined 0 1 := ⟨[], _, 16, {}, {}, rfl, .inl ⟨rfl, rfl⟩⟩
  -- One turn is left: the reader has been woken for the second message and the end of the stream.
  obtain ⟨hphase, hready, hended, hfirst⟩ :
      (u.conns[1]?).map Connection.phase = some .connected ∧ u.ready = [.reader 1] ∧
      (u.takeInput 1).2.1 = .ended ∧ u.journal.received 1 = [.notification "a" .null] := by
    decide +kernel
  obtain ⟨hsent, hlimit, hflushed, hwhole⟩ :
      w.journal.accepted 0 = [.notification "a" .null, .notification "b" (.bool true)] ∧
      w.limit 1 = defaultMaxContentLength ∧ (w.journal.cuts 0).head? = some true ∧
      w.journal.isBroken 0 = false := by decide +kernel
  have hd : u.IsConnected 1 := Option.map_eq_some_iff.mp hphase
  have hend : w.HasReadEnd 0 1 := ⟨u, [], [], hj, hd, hready, hended, rfl⟩
  have hread : ∀ m ∈ w.journal.accepted 0, m.IsReadable (w.limit 1) := by
    rw [hsent, hlimit]
    exact List.forall_mem_cons.mpr
      ⟨⟨by decide +kernel, by decide +kernel, by decide +kernel, by decide +kernel⟩,
        List.forall_mem_cons.mpr
          ⟨⟨by decide +kernel, by decide +kernel, by decide +kernel, by decide +kernel⟩,
            List.forall_mem_nil _⟩⟩
  have hdata : ∀ m ∈ w.journal.accepted 0, ∀ f ∈ m.failure?, f.data ≠ some .null := by
    rw [hsent]
    decide +kernel
  obtain ⟨-, hall⟩ := delivers_in_order (hj.run [.settle 1]) (fun m hm => (hread m hm).exact) hdata
  exact ⟨hfirst, hall hread hflushed hwhole hend, hsent⟩

end Network

end Parley

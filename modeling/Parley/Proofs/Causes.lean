import Parley.Proofs.Delivery

/-!
# What begins the end of a connection

The end of a connection begins when a user asks for it, when the peer is gone, or when one of the
two loops fails. Each of these begins it once, with its own choice whether what is queued is still
written, and what its loop does afterwards does not change that choice.

- `Network.Steady`: what every move keeps about connections.
- `Network.Verdict`, `Network.readVerdict`: what the loop that reads comes to in its turn.
- `Network.cuts_readLoop`, `Network.cuts_writeLoop`: the ends that the two loops begin.
-/

namespace Parley.Network

open Connection (Sound)

variable {w w' : Network} {c : Nat} {x : Connection}

/-! ## What every move keeps -/

/-- Every connection is in one of the parts of its life. -/
structure Steady (w : Network) : Prop where
  housed : w.Housed
  sound : w.Each Sound

namespace Steady

theorem moves (h : w.Steady) (hm : Moves w w') : w'.Steady := by
  induction hm with
  | refl => exact h
  | tail _ hm ih =>
    refine ⟨hm.housed ih.housed, ?_⟩
    exact hm.each (fun hx hj => .unused (hx.unused hj)) (fun hS hm => hS.step hm) ih.housed ih.sound

theorem pop (h : w.Steady) (q : List Task) : ({ w with ready := q } : Network).Steady :=
  ⟨h.housed, h.sound.conn, h.sound.other⟩

/-- A connection that is connected is in the middle of its life. -/
theorem live (h : w.Steady) (hx : w.conns[c]? = some x) (hp : x.phase = .connected) :
    ∃ l, Connection.Live c x w.journal l :=
  (h.sound.conn c x hx).live_of_isLive (by rw [hp]; rfl)

/-- Once the end of a connection has begun, nothing changes how it began. -/
theorem cuts_moves (h : w.Steady) {flush : Bool} (hc : w.journal.cuts c = [flush])
    (hm : Moves w w') : w'.journal.cuts c = [flush] := by
  cases hx : w.conns[c]? with
  | none => simp [Journal.cuts_eq_nil (h.sound.other c hx)] at hc
  | some x =>
    obtain ⟨y, es, hy, hj, hs⟩ := (Path.of_moves hm).conn h.housed hx
    cases h.sound.conn c x hx with
    | unused hu => cases hc.symm.trans hu.cuts
    | live hl => cases hc.symm.trans hl.cuts
    | @ended l f he =>
      obtain ⟨⟨k, hk⟩, -, -⟩ := he.frozen hs
      rw [hj, hk.cuts, ← hc, he.cuts]

/-- **The end begins once**, with the choice of whatever began it. -/
theorem cuts_teardown (h : w.Steady) (hx : w.conns[c]? = some x) (hp : x.phase = .connected)
    (flush : Bool) (hm : Moves (w.teardown c flush) w') : w'.journal.cuts c = [flush] := by
  obtain ⟨l, hl⟩ := h.live hx hp
  obtain ⟨⟨q, -, he⟩, -⟩ := teardown_of_live hx (by rw [hp]; rfl) flush
  refine (h.moves (moves_teardown w c flush)).cuts_moves ?_ hm
  rw [he]
  show Journal.cuts c (.cut c flush :: w.journal) = [flush]
  rw [Journal.cuts, if_pos rfl, hl.cuts, List.nil_append]

end Steady

theorem Reachable.steady (h : Reachable w) : w.Steady := ⟨h.housed, h.sound⟩

/-! ## What a user asks for -/

theorem disconnect_of_connected (hx : w.conns[c]? = some x) (hp : x.phase ≠ .disconnected)
    (flush : Bool) : w.disconnect c flush = w.teardown c flush := by
  rw [disconnect, hx, Option.map_some]
  split
  · next h => exact absurd (Option.some.inj h) hp
  · rfl

theorem dropConn_of_connected (hx : w.conns[c]? = some x) (hp : x.phase ≠ .disconnected) :
    w.dropConn c = w.teardown c false := disconnect_of_connected hx hp false

/-! ## What the loop that reads comes to -/

/-- What the loop that reads comes to in its turn. -/
inductive Verdict where
  | goesOn
  /-- The stream has ended, between two frames. -/
  | ended
  /-- Reading failed, or what was read is no frame or no message. -/
  | failed (e : ReadError)
  deriving DecidableEq, Repr

/-- Why the body of a frame is no message. -/
def bodyError? (body : List UInt8) : Option ReadError :=
  match Message.ofBytes body with
  | .error e => some e
  | .ok _ => none

/-- What some bytes and what follows them come to, behind what is known of the frame under way. The
first error counts. -/
def verdict (limit : Nat) (s : Frame.Intake) (bytes : List UInt8) (sequel : Sequel) : Verdict :=
  let (bodies, rest) := s.feed limit bytes
  match bodies.findSome? bodyError?, rest, sequel with
  | some e, _, _ => .failed e
  | none, .error e, _ => .failed e
  | none, .ok _, .open => .goesOn
  | none, .ok _, .fault text => .failed (.stream text)
  | none, .ok s, .ended =>
    match s.finish limit with
    | .error e => .failed e
    | .ok none => .ended
    | .ok (some body) => (bodyError? body).elim .ended .failed

/-- The ends of a connection that a verdict begins. -/
def Verdict.cuts (flushOnEnd : Bool) : Verdict → List Bool
  | .goesOn => []
  | .ended => [flushOnEnd]
  | .failed _ => [false]

/-- Handing on messages fails with the first body that is no message. -/
theorem receiveAll_eq (c : Nat) (bodies : List (List UInt8)) (w : Network) :
    (∀ e w', receiveAll c w bodies = .error (e, w') → bodies.findSome? bodyError? = some e) ∧
      ∀ w', receiveAll c w bodies = .ok w' → bodies.findSome? bodyError? = none := by
  induction bodies generalizing w with
  | nil =>
    constructor
    · intro e w' h
      cases h
    · intro w' _
      rfl
  | cons body bodies ih =>
    rw [receiveAll, List.findSome?_cons, bodyError?]
    cases Message.ofBytes body with
    | error e =>
      constructor
      · intro e' w' h
        obtain ⟨rfl, -⟩ := Prod.mk.inj (Except.error.inj h)
        rfl
      · intro w' h
        cases h
    | ok m => exact ih _

section reading

variable {s : Frame.Intake} (h : w.Steady) (hx : w.conns[c]? = some x) (hp : x.phase = .connected)
  (hr : x.reading = .running s)

include h hx hp hr

theorem cuts_failReading (e : ReadError) : (w.failReading c e).journal.cuts c = [false] := by
  have hl := h.moves (aside_log w (.protocolError e)).moves
  obtain ⟨y, hy, hyr, -, hyp⟩ := teardown_conn (w := w.log (.protocolError e)) hx false
  exact hl.cuts_teardown hx hp false (moves_stopReading hy (hyr.trans hr) (.inr hyp))

theorem cuts_endReading : (w.endReading c).journal.cuts c = [x.config.flushOnEnd] := by
  rw [endReading, hx, Option.any_some]
  obtain ⟨y, hy, hyr, -, hyp⟩ := teardown_conn hx x.config.flushOnEnd
  exact h.cuts_teardown hx hp _ (moves_stopReading hy (hyr.trans hr) (.inr hyp))

/-- What the end of the stream comes to. -/
theorem cuts_closeIntake (limit : Nat) (t : Frame.Intake) :
    (w.closeIntake c limit t).journal.cuts c =
      (verdict limit t [] .ended).cuts x.config.flushOnEnd := by
  have hread : x.IsReading := by
    obtain ⟨l, hl⟩ := h.live hx hp
    exact hl.reading
  simp only [closeIntake, verdict, Frame.Intake.feed, List.findSome?_nil]
  -- The stream ends within a frame, between two, or with a body that is whole.
  cases t.finish limit with
  | error e => exact cuts_failReading h hx hp hr e
  | ok o =>
    cases o with
    | none => exact cuts_endReading h hx hp hr
    -- A last body is handled before the end; if it is no message, that is the fault.
    | some body =>
      obtain ⟨hok, herr⟩ := inside_receiveAll [body] hx hread
      obtain ⟨hbad, hgood⟩ := receiveAll_eq c [body] w
      cases ha : receiveAll c w [body] with
      | error p =>
        obtain ⟨e, w'⟩ := p
        have hi := herr e w' ha
        obtain ⟨l, hl, -⟩ := hi.conn hx hread
        have he : bodyError? body = some e := by simpa using hbad e w' ha
        simp only [ha, he, Option.elim_some]
        exact cuts_failReading (h.moves hi.moves) hl hp hr e
      | ok w' =>
        have hi := hok w' ha
        obtain ⟨l, hl, -⟩ := hi.conn hx hread
        have he : bodyError? body = none := by simpa using hgood w' ha
        simp only [ha, he, Option.elim_none]
        have hend := cuts_endReading (h.moves hi.moves) hl hp hr
        exact hend

/-- **The turn of the loop that reads** begins the end of its connection exactly if what it reads
comes to that: with a flush if the settings say so when the stream has ended, and without one when
reading failed or what was read is no frame or no message. -/
theorem cuts_readLoop : (w.readLoop c).journal.cuts c =
    (verdict x.config.maxContentLength s (w.takeInput c).1 (w.takeInput c).2.1).cuts
      x.config.flushOnEnd := by
  -- A connection that has not been cut reads on, and its turn is one round.
  obtain ⟨l, hlive⟩ := h.live hx hp
  have hloop : w.readLoop c = w.readOn c x.config.maxContentLength s := by
    rw [readLoop, hx]
    simp only [hr]
    rw [if_neg (by simp [hlive.reading.2])]
  obtain ⟨hm, stream, hx'⟩ := moves_takeInput hx
  have h' := h.moves hm
  have hread : ({ x with stream := stream } : Connection).IsReading := hlive.reading
  obtain ⟨hok, herr⟩ := inside_receiveAll
    (s.feed x.config.maxContentLength (w.takeInput c).1).1 hx' hread
  obtain ⟨hbad, hgood⟩ := receiveAll_eq c
    (s.feed x.config.maxContentLength (w.takeInput c).1).1 (w.takeInput c).2.2
  simp only [hloop, readOn, verdict]
  cases ha : receiveAll c (w.takeInput c).2.2
      (s.feed x.config.maxContentLength (w.takeInput c).1).1 with
  -- A body of this piece is no message: the reader stops there.
  | error p =>
    obtain ⟨e, v⟩ := p
    have hi := herr e v ha
    obtain ⟨l, hl, -⟩ := hi.conn hx' hread
    simp only [hbad e v ha]
    exact cuts_failReading (h'.moves hi.moves) hl hp hr e
  -- All of them are messages; what follows them decides.
  | ok v =>
    have hi := hok v ha
    have hv := h'.moves hi.moves
    obtain ⟨l, hl, -⟩ := hi.conn hx' hread
    simp only [hgood v ha]
    cases (s.feed x.config.maxContentLength (w.takeInput c).1).2 with
    | error e => exact cuts_failReading hv hl hp hr e
    | ok t =>
      cases (w.takeInput c).2.1 with
      -- There is more to come, and nothing has been cut.
      | «open» =>
        obtain ⟨k, hk⟩ := hv.live hl hp
        exact hk.cuts
      | fault text => exact cuts_failReading hv hl hp hr _
      | ended =>
        have := cuts_closeIntake hv hl hp hr x.config.maxContentLength t
        simpa only [verdict, Frame.Intake.feed, List.findSome?_nil] using this

end reading

/-! ## What the loop that writes comes to -/

/-- The fault that is met inside a message: the stream takes no bytes, or does not pass on a frame
that is complete. -/
def writeFault (w : Network) (c : Nat) (rest : List UInt8) : Option String :=
  match (w.write c rest).1.failure with
  | some text => some text
  | none =>
    match rest.drop (w.write c rest).1.count with
    | [] => (w.write c rest).2.flushFault c
    | _ :: _ => none

/-- The end of a connection that a failure of its loop that writes begins, if one was met. -/
def Broke (w : Network) (c : Nat) : Prop :=
  if w.journal.isBroken c = true then w.journal.cuts c = [false] else w.journal.cuts c = []

section writing

/-- What is written into a stream is not the end of a connection, nor a failure. -/
theorem isBroken_write (w : Network) (c : Nat) (rest : List UInt8) :
    (w.write c rest).2.journal.isBroken c = w.journal.isBroken c := by
  have hj : (w.takeOutput c rest).2.journal = w.journal := by
    rw [takeOutput]
    split
    · rfl
    · rfl
    · split
      · rfl
      · simp only
        split
        · rfl
        · rw [wakeReader_eq]
  rw [write]
  simp only
  split
  · rw [hj]
  · show Journal.isBroken c (.wrote _ _ :: (w.takeOutput c rest).2.journal) = _
    rw [hj]
    rfl

/-- A failure to write is never forgotten. -/
theorem isBroken_moves (hw : w.Housed) (hm : Moves w w') (hb : w.journal.isBroken c = true) :
    w'.journal.isBroken c = true := by
  obtain ⟨es, hj⟩ := (Path.of_moves hm).journal hw
  rw [hj, Journal.isBroken_append, hb, Bool.or_true]

/-- When writing fails, the end of the connection begins without a flush. -/
theorem broke_failWriting (h : w.Steady) (hx : w.conns[c]? = some x) (hp : x.phase = .connected)
    (hw : x.IsWriting) (text : String) :
    (w.failWriting c text).journal.isBroken c = true ∧
      (w.failWriting c text).journal.cuts c = [false] := by
  let v := (w.log (.writeFailed text)).teardown c false
  have hl := h.moves (aside_log w (.writeFailed text)).moves
  have hv : v.Steady := hl.moves (moves_teardown _ c false)
  obtain ⟨y, hy, -, hyw, hyp⟩ := teardown_conn (w := w.log (.writeFailed text)) hx false
  have hstop : Moves v ((v.emit (.broke c)).modifyConn c Connection.stopWriting) := by
    have hy' : y.IsWriting := by rwa [Connection.IsWriting, hyw]
    have ht := Move.turn hy (.stopBroken hyp hy')
    rw [← modify_eq_set hy] at ht
    exact .single ht
  have hrest := moves_afterWriting (v.emit (.broke c)) c
  refine ⟨isBroken_moves (hv.moves hstop).housed hrest ?_,
    hl.cuts_teardown hx hp false (hstop.trans hrest)⟩
  simp [emit, modifyConn, Journal.isBroken]

/-- The loop fails exactly if it meets a fault; otherwise the connection goes on. -/
theorem writeOn_cases (h : w.Steady) (hx : w.conns[c]? = some x) (hp : x.phase = .connected)
    (ha : x.aborted = false) {rest : List UInt8} (hw : x.writing = .busy rest) :
    ((∃ text, w.writeFault c rest = some text) ∧
      (w.writeOn c rest).journal.isBroken c = true ∧
      (w.writeOn c rest).journal.cuts c = [false]) ∨
    (w.writeFault c rest = none ∧
      (w.writeOn c rest).journal.isBroken c = w.journal.isBroken c ∧
      ∃ s z, (w.writeOn c rest).conns[c]? = some { x with stream := s, writing := z }) := by
  -- Three ways for a write to go: the stream fails, the flush fails, or neither does.
  obtain ⟨hm, s, hs⟩ := moves_write hx ha hw
  have hv := h.moves hm
  have hb := isBroken_write w c rest
  rw [writeOn, writeFault]
  simp only
  cases hf : (w.write c rest).1.failure with
  | some text =>
    exact .inl ⟨⟨text, rfl⟩, broke_failWriting hv hs hp (.inr ⟨_, rfl⟩) text⟩
  | none =>
    cases hd : rest.drop (w.write c rest).1.count with
    | cons b bs => exact .inr ⟨rfl, hb, s, _, hs⟩
    | nil =>
      rw [hd] at hs
      cases hflush : (w.write c rest).2.flushFault c with
      | some text =>
        exact .inl ⟨⟨text, rfl⟩, broke_failWriting hv hs hp (.inr ⟨_, rfl⟩) text⟩
      | none =>
        refine .inr ⟨rfl, hb, s, .idle, ?_⟩
        simp only
        rw [getElem?_modifyConn_self, hs]
        rfl

/-- **The turn of the loop that writes** begins the end of its connection exactly if it fails, and
then without a flush. -/
theorem broke_writeLoop (n : Nat) (h : w.Steady) (hx : w.conns[c]? = some x)
    (hp : x.phase = .connected) (hb : w.journal.isBroken c = false) :
    Broke (writeLoop c n w) c := by
  obtain ⟨l, hl⟩ := h.live hx hp
  have stays : Broke w c := by rw [Broke, hb, if_neg Bool.false_ne_true, hl.cuts]
  induction n generalizing w x l with
  | zero => exact stays
  | succ n ih =>
    -- Inside a message the loop fails for good, or goes on with the next one.
    have after : ∀ {v : Network} {y : Connection} {rest : List UInt8}, v.Steady →
        v.conns[c]? = some y → y.phase = .connected → y.aborted = false →
        y.writing = .busy rest → v.journal.isBroken c = false →
        Broke (v.writeOn c rest) c ∧ Broke (writeLoop c n (v.writeOn c rest)) c := by
      intro v y rest hv hy hyp hya hyw hvb
      have hs := hv.moves (moves_writeOn hy hya hyw)
      rcases writeOn_cases hv hy hyp hya hyw with ⟨-, hbr, hcuts⟩ | ⟨-, hbr, s, z, hz⟩
      · constructor
        · rw [Broke, if_pos hbr]
          exact hcuts
        · have hm := moves_writeLoop c n (v.writeOn c rest)
          rw [Broke, if_pos (isBroken_moves hs.housed hm hbr)]
          exact hs.cuts_moves hcuts hm
      · rw [hvb] at hbr
        obtain ⟨k, hk⟩ := hs.live hz hyp
        have hstays : Broke (v.writeOn c rest) c := by
          rw [Broke, hbr, if_neg Bool.false_ne_true, hk.cuts]
        exact ⟨hstays, ih hs hz hyp hbr k hk hstays⟩
    rw [writeLoop, hx]
    simp only [hl.aborted, Bool.false_eq_true, if_false]
    split
    · exact stays
    · exact stays
    · next rest hw =>
      obtain ⟨hon, hlater⟩ := after h hx hp hl.aborted hw hb
      split
      · exact hlater
      · exact hon
    · next hw =>
      split
      · exact stays
      · next l' hpop =>
        -- A connection that is alive has no end mark in its queue.
        obtain ⟨k, hk, hpop⟩ := Option.bind_eq_some_iff.mp hpop
        obtain ⟨q, hq, -⟩ := Link.pop_eq_some hpop
        obtain rfl := Option.some.inj (hl.link.symm.trans hk)
        exact absurd (by rw [hq]; exact List.mem_cons_self) hl.queue
      · next m l' hpop =>
        obtain ⟨k, hk, hpop⟩ := Option.bind_eq_some_iff.mp hpop
        obtain ⟨q, hq, rfl⟩ := Link.pop_eq_some hpop
        have hturn : x.Turn c []
            { x with link := some { k with queue := q }, writing := .busy m.frame } :=
          .beginFrame hl.aborted hw hk hq
        have hm := moves_turn (f := fun x =>
          { x with link := some { k with queue := q }, writing := .busy m.frame }) hx hturn
        have hy : (w.modifyConn c fun x => { x with
            link := some { k with queue := q }, writing := .busy m.frame }).conns[c]? =
            some { x with link := some { k with queue := q }, writing := .busy m.frame } := by
          rw [getElem?_modifyConn_self, hx]
          rfl
        obtain ⟨hon, hlater⟩ := after (h.moves hm) hy hp hl.aborted rfl hb
        split
        · exact hlater
        · exact hon

end writing

end Parley.Network

import Parley.Network.Loops
import Parley.Proofs.Ending
import Parley.Proofs.Intake
import Parley.Proofs.Turns

/-!
# The two loops, as moves

The turn of a loop is a series of moves. Its steps are told apart by what they leave of the
connection: the loop that reads goes on, or the end of the connection has begun before it stops.

- `Network.Reads`: whether the loop that reads goes on; no message that it hands on stops it.
- `Network.moves_readLoop`: the turn of the loop that reads.
- `Network.moves_writeLoop`: the turn of the loop that writes.
-/

namespace Parley.Network

variable {w : Network} {c : Nat} {x : Connection}

/-! ## The end, as the loops see it -/

/-- After the end has begun the two loops are where they were, and the connection is not alive. -/
theorem teardown_conn (hx : w.conns[c]? = some x) (flush : Bool) :
    ∃ y, (w.teardown c flush).conns[c]? = some y ∧ y.reading = x.reading ∧
      y.writing = x.writing ∧ y.phase.isLive = false := by
  cases hp : x.phase.isLive with
  | false =>
    rw [teardown_of_not_live (by simp [hx, hp])]
    exact ⟨x, hx, rfl, rfl, hp⟩
  | true =>
    obtain ⟨⟨q, -, he⟩, -⟩ := teardown_of_live hx hp flush
    refine ⟨x.cut flush, ?_, rfl, rfl, rfl⟩
    rw [he]
    simp [severed, resolved, emit, modifyConn, hx]

/-- The end of a connection begins, and then its loop that reads stops. -/
theorem moves_teardown_stopReading {s : Frame.Intake} (hx : w.conns[c]? = some x)
    (hr : x.reading = .running s) (flush : Bool) :
    Moves w ((w.teardown c flush).stopReading c) := by
  obtain ⟨y, hy, hr', -, hp⟩ := teardown_conn hx flush
  exact (moves_teardown w c flush).trans (moves_stopReading hy (hr'.trans hr) (.inr hp))

theorem moves_failReading {s : Frame.Intake} (hx : w.conns[c]? = some x)
    (hr : x.reading = .running s) (e : ReadError) : Moves w (w.failReading c e) :=
  (aside_log w _).moves.trans (moves_teardown_stopReading (w := w.log _) hx hr false)

theorem moves_endReading {s : Frame.Intake} (hx : w.conns[c]? = some x)
    (hr : x.reading = .running s) : Moves w (w.endReading c) :=
  moves_teardown_stopReading hx hr _

/-! ## Reading -/

/-- Taking all the bytes that are there changes nothing but the stream. -/
theorem moves_takeInput (hx : w.conns[c]? = some x) :
    Moves w (w.takeInput c).2.2 ∧
      ∃ s, (w.takeInput c).2.2.conns[c]? = some { x with stream := s } := by
  -- From a script or from a pipe; only the stream of the connection changes.
  cases hs : x.stream with
  | script input output =>
    simp only [takeInput, hx, Option.map_some, hs]
    have ht : x.Turn c [] { x with stream := .script { input with bytes := [] } output } :=
      .stream _
    refine ⟨moves_turn hx ht, .script { input with bytes := [] } output, ?_⟩
    rw [getElem?_modifyConn_self, hx]
    rfl
  | pipes incoming outgoing =>
    simp only [takeInput, hx, Option.map_some, hs]
    cases hp : w.pipes[incoming]? with
    | none => exact ⟨.refl w, x.stream, hx⟩
    | some p =>
      simp only
      split
      · exact ⟨.refl w, x.stream, hx⟩
      · have hm := Move.surroundings (w := w)
          (w.pipes.modify incoming fun p => { p with held := [] }) w.registrations w.openGates
          w.gateQueue (Nat.le_refl _)
        refine ⟨(Moves.single hm).roused (roused_wakeBusyWriter _ _), x.stream, ?_⟩
        rw [wakeBusyWriter_eq]
        exact hx

/-- Whether the loop of a connection reads. -/
def Reads (w : Network) (c : Nat) : Prop := ∃ x, w.conns[c]? = some x ∧ x.IsReading

/-- What moves inside the connections does not stop a loop that reads. -/
theorem Inside.reads {w' : Network} (h : Inside w w') (hr : w.Reads c) : w'.Reads c := by
  obtain ⟨x, hx, hr⟩ := hr
  obtain ⟨l, hl, hr⟩ := h.conn hx hr
  exact ⟨_, hl, hr⟩

/-- A loop that reads goes on after every message. -/
theorem Reads.receive (hr : w.Reads c) (m : Message) : (w.receive c m).Reads c := by
  obtain ⟨x, hx, hr⟩ := hr
  exact (inside_receive hx hr m).reads ⟨x, hx, hr⟩

/-- Taking its input does not stop it. -/
theorem reads_takeInput {s : Frame.Intake} (hx : w.conns[c]? = some x) (hs : x.reading = .running s)
    (hd : x.shutdown = false) : (w.takeInput c).2.2.Reads c := by
  obtain ⟨-, stream, hx'⟩ := moves_takeInput hx
  exact ⟨_, hx', ⟨s, hs⟩, hd⟩

theorem inside_receiveAll (bodies : List (List UInt8)) (hx : w.conns[c]? = some x)
    (hr : x.IsReading) :
    (∀ w', receiveAll c w bodies = .ok w' → Inside w w') ∧
      ∀ e w', receiveAll c w bodies = .error (e, w') → Inside w w' := by
  refine receiveAll_induction (P := Inside w) (fun m h => ?_) (.refl w) bodies
  obtain ⟨y, hy, hr⟩ := h.reads ⟨x, hx, hr⟩
  exact h.trans (inside_receive hy hr m)

/-- The turn of the loop that reads. -/
theorem moves_readLoop (w : Network) (c : Nat) : Moves w (w.readLoop c) := by
  apply readLoop_induction (P := fun v => Moves w v ∧ v.Reads c) (Q := Moves w)
  case receive =>
    rintro v m ⟨hm, x, hx, hr⟩
    exact ⟨hm.trans (inside_receive hx hr m).moves, Reads.receive ⟨x, hx, hr⟩ m⟩
  case fail =>
    rintro v e ⟨hm, x, hx, ⟨s, hs⟩, -⟩
    exact hm.trans (moves_failReading hx hs e)
  case done =>
    rintro v ⟨hm, x, hx, ⟨s, hs⟩, -⟩
    exact hm.trans (moves_endReading hx hs)
  case goOn =>
    rintro v s ⟨hm, x, hx, hr⟩
    exact hm.trans (moves_turn hx (.read hr s))
  case rest => exact .refl w
  case stop => exact fun x s hx hs hd => moves_stopReading hx hs (.inl hd)
  case take => exact fun x s hx hs hd => ⟨(moves_takeInput hx).1, reads_takeInput hx hs hd⟩

/-! ## Writing -/

/-- Writing bytes to a stream changes nothing but the stream. -/
theorem moves_takeOutput (bs : List UInt8) (hx : w.conns[c]? = some x) :
    Moves w (w.takeOutput c bs).2 ∧
      ∃ s, (w.takeOutput c bs).2.conns[c]? = some { x with stream := s } := by
  cases hs : x.stream with
  | script input output =>
    simp only [takeOutput, hx, Option.map_some, hs]
    have ht : x.Turn c [] { x with stream := .script input (output.take bs.length).2 } :=
      .stream _
    refine ⟨moves_turn hx ht, .script input (output.take bs.length).2, ?_⟩
    rw [getElem?_modifyConn_self, hx]
    rfl
  | pipes incoming outgoing =>
    simp only [takeOutput, hx, Option.map_some, hs]
    cases hp : w.pipes[outgoing]? with
    | none => exact ⟨.refl w, x.stream, hx⟩
    | some p =>
      have hm := Move.surroundings (w := w) (w.pipes.modify outgoing fun _ => (p.take bs).2)
        w.registrations w.openGates w.gateQueue (Nat.le_refl _)
      simp only
      split
      · exact ⟨.single hm, x.stream, hx⟩
      · refine ⟨(Moves.single hm).roused (roused_wakeReader _ _), x.stream, ?_⟩
        rw [wakeReader_eq]
        exact hx

/-- Bytes of a frame are written, and the rest of the frame is what is left of it. -/
theorem moves_write {rest : List UInt8} (hx : w.conns[c]? = some x) (ha : x.aborted = false)
    (hw : x.writing = .busy rest) :
    Moves w (w.write c rest).2 ∧ ∃ s, (w.write c rest).2.conns[c]? =
      some { x with stream := s, writing := .busy (rest.drop (w.write c rest).1.count) } := by
  obtain ⟨hm, s, hs⟩ := moves_takeOutput rest hx
  rw [write]
  simp only
  split
  · next h0 =>
    refine ⟨hm, s, ?_⟩
    rw [hs, h0, List.drop_zero, ← hw]
  · refine ⟨hm.trans ?_, s, ?_⟩
    · have ht := Connection.Turn.wrote (c := c) (x := { x with stream := s })
        (w.takeOutput c rest).1.count ha hw
      have := Move.turn hs ht
      rw [modifyConn, modify_eq_set hs]
      exact .single this
    · show (Network.modifyConn _ c _).conns[c]? = _
      rw [getElem?_modifyConn_self, hs]
      rfl

/-- Writing failed, and the connection ends without a flush. -/
theorem moves_failWriting (hx : w.conns[c]? = some x) (hw : x.IsWriting) (text : String) :
    Moves w (w.failWriting c text) := by
  obtain ⟨y, hy, -, hw', hp⟩ := teardown_conn (w := w.log (.writeFailed text)) hx false
  have hy' : y.IsWriting := by rwa [Connection.IsWriting, hw']
  rw [failWriting]
  refine (aside_log w (.writeFailed text)).moves.trans ((moves_teardown _ c false).trans ?_)
  refine Moves.trans (.single (.turn hy (.stopBroken hp hy'))) ?_
  rw [← modify_eq_set hy]
  exact moves_afterWriting (((w.log (.writeFailed text)).teardown c false).emit (.broke c)) c

/-- The loop goes on inside a message. -/
theorem moves_writeOn {rest : List UInt8} (hx : w.conns[c]? = some x) (ha : x.aborted = false)
    (hw : x.writing = .busy rest) : Moves w (w.writeOn c rest) := by
  obtain ⟨hm, s, hs⟩ := moves_write hx ha hw
  rw [writeOn]
  refine hm.trans ?_
  simp only
  split
  · exact moves_failWriting hs (.inr ⟨_, rfl⟩) _
  · split
    · next hd =>
      rw [hd] at hs
      split
      · exact moves_failWriting hs (.inr ⟨_, rfl⟩) _
      · exact moves_turn hs (.endFrame rfl)
    · exact .refl _

/-- The turn of the loop that writes. -/
theorem moves_writeLoop (c n : Nat) (w : Network) : Moves w (writeLoop c n w) := by
  apply writeLoop_induction (P := Moves w)
  case abort => exact fun h hx ha hw => h.trans (moves_stopWriting hx (.stopAborted ha hw))
  case drain =>
    intro v x l h hx hw hl
    -- The rest of the queue is thrown away with the end mark.
    obtain ⟨k, hk, hp⟩ := Option.bind_eq_some_iff.mp hl
    obtain ⟨q, hq, rfl⟩ := Link.pop_eq_some hp
    have hs : (v.setLink c { k with queue := q }).modifyConn c Connection.stopWriting =
        v.modifyConn c Connection.stopWriting := by
      simp only [setLink, modifyConn, modify_eq_set hx]
      rw [modify_eq_set (List.getElem?_set_self (List.getElem?_eq_some_iff.mp hx).1), List.set_set]
      simp [Connection.stopWriting, hk]
    have hm := moves_afterWriting (v.setLink c { k with queue := q }) c
    rw [hs] at hm
    exact h.trans ((moves_turn hx (.stopDrained hw hk hq)).trans hm)
  case begin =>
    intro v x m l h hx ha hw hl
    obtain ⟨k, hk, hp⟩ := Option.bind_eq_some_iff.mp hl
    obtain ⟨q, hq, rfl⟩ := Link.pop_eq_some hp
    exact h.trans (moves_turn (f := fun x =>
      { x with link := some { k with queue := q }, writing := .busy m.frame }) hx
      (.beginFrame ha hw hk hq))
  case goOn => exact fun h hx ha hw => h.trans (moves_writeOn hx ha hw)
  case h => exact .refl w

end Parley.Network

import Parley.Network.Teardown
import Parley.Proofs.Sending

/-!
# The beginning and the end of connections, as moves

- `Network.connect_of_disconnected`: what connecting comes to, `Network.moves_connect`: as moves.
- `Network.teardown_of_live`: the end begins, in one move, and everybody who waited is woken.
- `Network.teardown_of_not_live`: a second time nothing changes.
- `Network.moves_stopReading`, `Network.moves_stopWriting`: the ends of the two loops.
- `Network.moves_disconnect`, `Network.moves_dropConn`: what a user may ask for.
-/

namespace Parley.Network

variable {w : Network} {c : Nat} {x : Connection}

/-! ## The beginning -/

/-- A connection and a dispatcher are bound to each other, and the two loops have started. -/
def joined (w : Network) (c d : Nat) : Network :=
  (((w.modifyConn c fun x => x.start d).modifyDispatcher d fun x => { x with bound := some c }).wake
    (.reader c)).wake (.writer c)

theorem roused_joined (w : Network) (c d : Nat) :
    Roused
      ((w.modifyConn c fun x => x.start d).modifyDispatcher d fun x => { x with bound := some c })
      (w.joined c d) :=
  (roused_wake _ _).trans (roused_wake _ _)

/-- A dispatcher is bound to no connection by what becomes of one without a link. -/
theorem boundConn?_modifyConn {f : Connection → Connection} (hx : w.conns[c]? = some x)
    (hf : (f x).isOpen = x.isOpen) (d : Nat) :
    (w.modifyConn c f).boundConn? d = w.boundConn? d := by
  rw [boundConn?, boundConn?]
  refine congrArg (fun p => Option.filter p _) (funext fun e => ?_)
  by_cases he : c = e
  · subst he
    rw [getElem?_modifyConn_self, hx, Option.map_some, Option.any_some, Option.any_some, hf]
  · rw [getElem?_modifyConn_ne w f (Ne.symm he)]

/-- What connecting a fresh connection comes to: it is joined to the dispatcher; or it is refused,
and all that was done is undone; or it is closed, since it had no stream in its hands. -/
theorem connect_of_disconnected (hx : w.conns[c]? = some x) (hp : x.phase = .disconnected)
    (d : Nat) :
    w.connect c d =
      if x.hasStream then
        if (w.dispatchers[d]?).isNone || (w.boundConn? d).isSome then (.error .alreadyConnected, w)
        else (.ok (), w.joined c d)
      else (.error .connectionClosed, w.modifyConn c Connection.giveBack) := by
  let f : Connection → Connection :=
    (fun x => { x with hasStream := false }) ∘ fun x => { x with phase := .connecting }
  have hu : (w.modifyConn c fun x => { x with phase := .connecting }).conns[c]? =
      some { x with phase := .connecting } := by
    rw [getElem?_modifyConn_self, hx, Option.map_some]
  have hb : (w.modifyConn c f).bind d c =
      if (w.dispatchers[d]?).isNone || (w.boundConn? d).isSome then .error .alreadyConnected
      else .ok ((w.modifyConn c f).modifyDispatcher d fun x => { x with bound := some c }) := by
    rw [bind, boundConn?_modifyConn hx rfl]
    rfl
  simp only [connect, hx, Option.map_some, hp, hu, Option.any_some, modifyConn_modifyConn]
  by_cases hs : x.hasStream = true
  · rw [if_pos hs, if_pos hs]
    by_cases hbound : ((w.dispatchers[d]?).isNone || (w.boundConn? d).isSome) = true
    · -- The first phase and the stream are taken back.
      have hroll : (Connection.rollBack ∘ f) x = x := by
        have hphase : (f x).phase = .connecting := rfl
        show (f x).rollBack = x
        rw [Connection.rollBack, if_pos hphase]
        show ({ x with phase := .disconnected, hasStream := true } : Connection) = x
        rw [← hp, ← hs]
      have hback : w.modifyConn c (Connection.rollBack ∘ f) = w := by
        rw [modifyConn, modify_eq_set hx, hroll, set_eq_self hx]
      rw [if_pos hbound] at hb ⊢
      simp only [f] at hb hback
      simp only [hb, hback]
    · have hstart : (w.modifyConn c f).modifyConn c (fun x => x.start d) =
          w.modifyConn c fun x => x.start d := by
        rw [modifyConn_modifyConn]
        rfl
      rw [if_neg hbound] at hb ⊢
      simp only [f] at hb
      simp only [hb]
      show (_, ((((w.modifyConn c f).modifyConn c fun x => x.start d).modifyDispatcher d _).wake
        _).wake _) = _
      rw [hstart]
      rfl
  · rw [if_neg hs, if_neg hs]
    rfl

/-- A connection that is not fresh is left as it is. -/
theorem connect_of_not_disconnected (hp : ∀ x, w.conns[c]? = some x → x.phase ≠ .disconnected)
    (d : Nat) : ∃ e, w.connect c d = (.error e, w) := by
  rw [connect]
  split
  · next h =>
    obtain ⟨x, hx, h⟩ := Option.map_eq_some_iff.mp h
    exact absurd h (hp x hx)
  · exact ⟨_, rfl⟩
  · exact ⟨_, rfl⟩

/-- A connection is joined to a dispatcher, or nothing changes, or it is closed for want of a
stream. -/
theorem connect_cases (w : Network) (c d : Nat) :
    (∃ x, w.conns[c]? = some x ∧ x.phase = .disconnected ∧ w.boundConn? d = none ∧
      (w.dispatchers[d]?).isSome = true ∧ w.connect c d = (.ok (), w.joined c d)) ∨
    (∃ e, w.connect c d = (.error e, w)) ∨
    ∃ x, w.conns[c]? = some x ∧ x.phase = .disconnected ∧ x.hasStream = false ∧
      w.connect c d = (.error .connectionClosed, w.modifyConn c Connection.giveBack) := by
  by_cases h : ∃ x, w.conns[c]? = some x ∧ x.phase = .disconnected
  · obtain ⟨x, hx, hp⟩ := h
    rw [connect_of_disconnected hx hp]
    cases hs : x.hasStream with
    | false => exact .inr (.inr ⟨x, hx, hp, hs, rfl⟩)
    | true =>
      by_cases hb : ((w.dispatchers[d]?).isNone || (w.boundConn? d).isSome) = true
      · exact .inr (.inl ⟨_, by rw [if_pos rfl, if_pos hb]⟩)
      · obtain ⟨hy, hd⟩ : (w.dispatchers[d]?).isSome = true ∧ w.boundConn? d = none := by
          simpa [Option.isSome_iff_ne_none] using hb
        exact .inl ⟨x, hx, hp, hd, hy, by rw [if_pos rfl, if_neg hb]⟩
  · exact .inr (.inl (connect_of_not_disconnected (fun x hx hp => h ⟨x, hx, hp⟩) d))

theorem moves_connect (w : Network) (c d : Nat) : Moves w (w.connect c d).2 := by
  rcases connect_cases w c d with ⟨x, hx, hp, hd, hy, h⟩ | ⟨e, h⟩ | ⟨x, hx, hp, -, h⟩
  · rw [h]
    exact (Moves.single (.connect d hx hp hd hy)).roused (roused_joined w c d)
  · rw [h]
    exact .refl w
  · rw [h, modifyConn, modify_eq_set hx]
    exact .single (.turn hx (.giveBack hp))

/-! ## The end of a stream -/

theorem moves_closePipe (w : Network) (p : Nat) : Moves w (w.closePipe p) := by
  rw [closePipe]
  split
  · exact .refl w
  · exact
      ((Moves.single (.surroundings _ _ _ _ (Nat.le_refl _))).roused (roused_wakeReader _ _)).roused
        (roused_wakeBusyWriter _ _)

theorem moves_dropStream (w : Network) (c : Nat) : Moves w (w.dropStream c) := by
  rw [dropStream]
  split
  · exact (moves_closePipe w _).trans (moves_closePipe _ _)
  · exact .refl w

/-- What a loop of a connection does is a move. -/
theorem moves_turn {f : Connection → Connection} (hx : w.conns[c]? = some x)
    (h : x.Turn c [] (f x)) : Moves w (w.modifyConn c f) := by
  rw [modifyConn, modify_eq_set hx]
  exact .single (.turn hx h)

theorem moves_closeIfFinished (w : Network) (c : Nat) : Moves w (w.closeIfFinished c) := by
  rw [closeIfFinished]
  split
  · next h =>
    obtain ⟨x, hx, hf⟩ := (Option.any_eq_true _ _).mp h
    exact (moves_turn hx (.close hf)).trans (moves_dropStream _ _)
  · exact .refl w

/-- The loop that reads stops: it was told to, or the end of the connection has begun. -/
theorem moves_stopReading {s : Frame.Intake} (hx : w.conns[c]? = some x)
    (hr : x.reading = .running s) (he : x.shutdown = true ∨ x.phase.isLive = false) :
    Moves w (w.stopReading c) := by
  have ht : Moves w (w.modifyConn c fun x => { x with reading := .stopped }) :=
    moves_turn hx (.stopReading hr he)
  exact (ht.trans (aside_remark _ rfl).moves).trans (moves_closeIfFinished _ _)

/-- What follows when the loop that writes has stopped. -/
theorem moves_afterWriting (w : Network) (c : Nat) :
    Moves (w.modifyConn c Connection.stopWriting) (w.stopWriting c) := by
  refine Moves.trans (Moves.trans (Moves.trans ?_ (aside_remark _ rfl).moves)
    (aside_remark _ rfl).moves) (moves_closeIfFinished _ _)
  split
  · exact moves_closePipe _ _
  · exact .refl _

/-- The loop that writes stops. -/
theorem moves_stopWriting (hx : w.conns[c]? = some x) (h : x.Turn c [] x.stopWriting) :
    Moves w (w.stopWriting c) :=
  (moves_turn hx h).trans (moves_afterWriting w c)

/-! ## The end of a connection -/

/-- The end of a live connection begins: its link is closed, all calls over it fail, and everybody
who waited for one is woken. -/
theorem teardown_of_live (hx : w.conns[c]? = some x) (hp : x.phase.isLive = true) (flush : Bool) :
    Roused (w.severed c x flush) (w.teardown c flush) ∧
    ∀ k ∈ x.waiters, ∀ y : Call, w.calls[k]? = some y → y.isWaiting = true →
      y.waiter ∈ (w.teardown c flush).ready := by
  -- The five stages of a teardown. With a flush the writer is woken before the callers, without one
  -- after them.
  let w1 := (w.modifyConn c fun x => x.cut flush).emit (.cut c flush)
  let w2 := if flush then w1.wakeIdleWriter c else w1
  let w3 := x.waiters.foldl (fun w k => w.resolveCall k .closed) w2
  let w4 := if flush then w3 else (w3.wakeIdleWriter c).wakeBusyWriter c
  let w5 := (w4.hangingRuns c).foldl (fun w r => w.wake (.handler r)) w4
  have ht : w.teardown c flush = w5.wakeReader c := by simp [teardown, hx, hp, w5, w4, w3, w2, w1]
  have h2 : Roused w1 w2 := by
    by_cases hf : flush = true
    · simpa [w2, hf] using roused_wakeIdleWriter w1 c
    · simpa [w2, hf] using Roused.refl w1
  obtain ⟨h3, hm⟩ := roused_resolveCalls x.waiters w2 .closed
  have h4 : Roused w3 w4 := by
    by_cases hf : flush = true
    · simpa [w4, hf] using Roused.refl w3
    · simpa [w4, hf] using (roused_wakeIdleWriter w3 c).trans (roused_wakeBusyWriter _ c)
  have h5 : Roused w4 w5 := Roused.foldl (fun w r => roused_wake w _) w4 _
  have h6 : Roused w3 (w.teardown c flush) := by
    rw [ht]
    exact (h4.trans h5).trans (roused_wakeReader w5 c)
  -- From the severed network on, tasks are woken and nothing else is done.
  have hs : Roused (w.severed c x flush) (w2.resolved x.waiters .closed) :=
    h2.map (f := fun w => w.resolved x.waiters .closed) fun _ _ => rfl
  refine ⟨(hs.trans h3).trans h6, fun k hk y hy hw => h6.ready.subset (hm k hk y ?_ hw)⟩
  obtain ⟨q, -, h2⟩ := h2
  rw [h2]
  exact hy

/-- A connection that is not alive does not end a second time. -/
theorem teardown_of_not_live (hx : ∀ x, w.conns[c]? = some x → x.phase.isLive = false)
    (flush : Bool) : w.teardown c flush = w := by
  rw [teardown]
  split
  · rfl
  · next x h => simp [hx x h]

theorem moves_teardown (w : Network) (c : Nat) (flush : Bool) : Moves w (w.teardown c flush) := by
  cases hx : w.conns[c]? with
  | none =>
    rw [teardown_of_not_live (by simp [hx])]
    exact .refl w
  | some x =>
    cases hp : x.phase.isLive with
    | false =>
      rw [teardown_of_not_live (by simp [hx, hp])]
      exact .refl w
    | true =>
      obtain ⟨⟨q, hq, he⟩, hm⟩ := teardown_of_live hx hp flush
      rw [he] at hm ⊢
      exact .single (.cut flush hx hp hq hm)

/-! ## What a user may ask for -/

theorem moves_dropUnused (w : Network) (c : Nat) : Moves w (w.dropUnused c) :=
  ((aside_remark w rfl).trans (aside_remark _ rfl)).moves.trans (moves_dropStream _ _)

theorem moves_disconnect (w : Network) (c : Nat) (flush : Bool) :
    Moves w (w.disconnect c flush) := by
  rw [disconnect]
  split
  · next hp =>
    obtain ⟨x, hx, hp⟩ := Option.map_eq_some_iff.mp hp
    exact (moves_turn hx (.giveBack hp)).trans (moves_dropUnused _ _)
  · exact moves_teardown w c flush

theorem moves_dropConn (w : Network) (c : Nat) : Moves w (w.dropConn c) :=
  moves_disconnect w c false

end Parley.Network

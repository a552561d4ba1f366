import Parley.Proofs.Registering

/-!
# Runs of handlers, as moves

The turn of a handler is a series of moves, whatever the handler does: it may send, take
registrations back, wait, begin a call of its own, or come to its answer. It leaves the loops of all
connections alone, and their phases and streams.

- `Network.Inside`: moves that leave the loops alone.
- `Network.inside_finish`: a run ends with one of the answers that it may give.
- `Network.inside_conclude`: a handler comes to its answer, or waits for it.
- `Network.inside_runHandler`: the turn of a handler.
-/

namespace Parley.Network

/-! ## Moves that leave the loops alone -/

/-- Moves that leave the loops of all connections alone. -/
structure Inside (w w' : Network) : Prop where
  moves : Moves w w'
  loops : w'.loops = w.loops

/-- What an aside does, the tasks can do in any turn. -/
theorem Aside.inside {w w' : Network} (h : Aside w w') : Inside w w' := ⟨h.moves, h.loops⟩

namespace Inside

variable {u v w : Network}

theorem refl (w : Network) : Inside w w := ⟨.refl w, rfl⟩

theorem trans (h : Inside u v) (h' : Inside v w) : Inside u w :=
  ⟨h.moves.trans h'.moves, h'.loops.trans h.loops⟩

/-- One move alone, if it leaves the loops. -/
theorem single (h : Move u v) (hl : v.loops = u.loops) : Inside u v := ⟨.single h, hl⟩

/-- Waking somebody afterwards makes no difference. -/
theorem roused (h : Inside u v) (h' : Roused v w) : Inside u w := by
  refine h.trans ⟨h'.moves, ?_⟩
  obtain ⟨q, -, rfl⟩ := h'
  rfl

end Inside

variable {w : Network} {r : Nat} {y : Run}

/-- Withdrawing a request is nothing to the loops. -/
theorem loops_withdraw (w : Network) (c : Nat) (id : Id) : (w.withdraw c id).loops = w.loops := by
  refine loops_modifyConn fun x => ?_
  rcases x.forget_cases c id with ⟨l, k, y, -, -, rfl, -, hx⟩ | ⟨-, -, hx⟩
  · rw [hx]
    rcases ({ x with link := some { l with pending := Link.without id l.pending } } :
      Connection).offer_cases c (cancelMessage id) with ⟨l', -, -, -, hy⟩ | ⟨-, -, hy⟩ <;> rw [hy]
  · rw [hx]

theorem loops_expired (w : Network) (k : Nat) (x : Call) : (w.expired k x).loops = w.loops :=
  loops_withdraw w x.conn x.id

theorem loops_begun (w : Network) (x : Call) (l : Link) (params : Json) :
    (w.begun x l params).loops = w.loops :=
  loops_modifyConn fun _ => rfl

/-- Looking whether a call is over leaves the loops and the runs alone. -/
theorem inside_checkCall (w : Network) (k : Nat) :
    Inside w (w.checkCall k) ∧ (w.checkCall k).runs = w.runs := by
  -- Whatever the state of the call, its own task looks at the call and at nothing else.
  have rest : (w.checkCall k).loops = w.loops ∧ (w.checkCall k).runs = w.runs := by
    cases hk : w.calls[k]? with
    | none =>
      rw [checkCall, hk]
      exact ⟨rfl, rfl⟩
    | some x =>
      cases hx : x.state with
      | waiting =>
        cases hd : x.isOverdue w.clock with
        | false =>
          rw [checkCall_of_early hk hx hd]
          exact ⟨rfl, rfl⟩
        | true =>
          obtain ⟨u, hu, -, q, -, he⟩ := checkCall_of_overdue hk hx hd
          rw [he]
          exact ⟨(loops_expired u k x).trans hu.loops, hu.runs⟩
      | answered r =>
        rw [checkCall_of_answered hk hx]
        exact ⟨rfl, rfl⟩
      | closed =>
        rw [checkCall_of_closed hk hx]
        exact ⟨rfl, rfl⟩
      | ended o =>
        rw [checkCall_of_isOver hk (by simp [Call.isOver, hx])]
        exact ⟨rfl, rfl⟩
      | dropped =>
        rw [checkCall_of_isOver hk (by simp [Call.isOver, hx])]
        exact ⟨rfl, rfl⟩
  exact ⟨⟨moves_checkCall w k, rest.1⟩, rest.2⟩

/-! ## The end of a run -/

/-- A handler that finishes concludes its run and wakes whoever may go on. -/
theorem roused_finish (hy : w.runs[r]? = some y) (outcome : Except Failure Json) :
    Roused (w.concluded r y outcome) (w.finish r outcome) := by
  rw [finish, hy]
  cases hi : y.id with
  | none =>
    simp only [concluded, hi, Option.elim_none]
    exact .refl _
  | some id =>
    simp only [concluded, hi, Option.elim_some]
    exact roused_sendOn _ _ _

theorem loops_concluded (w : Network) (r : Nat) (y : Run) (outcome : Except Failure Json) :
    (w.concluded r y outcome).loops = w.loops := by
  cases hi : y.id with
  | none =>
    rw [concluded, hi]
    rfl
  | some id =>
    rw [concluded, hi]
    exact loops_enqueue _ _ _

/-- A run ends, with one of the answers that it may give. -/
theorem inside_finish {outcome : Except Failure Json} (hy : w.runs[r]? = some y)
    (hf : ∀ o, y.stage ≠ .finished o) (he : y.MayEnd outcome)
    (hk : ∀ (k : Nat) (x : Call), y.stage = .calling k → w.calls[k]? = some x →
      x.isOver = true) : Inside w (w.finish r outcome) :=
  (Inside.single (.finish hy hf he hk) (loops_concluded w r y outcome)).roused
    (roused_finish hy outcome)

section fresh

variable (hy : w.runs[r]? = some y) (hs : y.stage = .fresh)

include hy hs

/-- A run that was just called ends. -/
theorem inside_finish_fresh {outcome : Except Failure Json} (ha : y.Answers outcome) :
    Inside w (w.finish r outcome) :=
  inside_finish hy (by simp [hs]) (.fresh hs ha) (by simp [hs])

/-- A handler comes to its answer at once. -/
theorem inside_respond {params : Json} {b : BodyOutcome} (hc : y.Concludes params)
    (hb : y.handler.Yields params b) : Inside w (w.finish r (y.handler.respond b)) :=
  inside_finish_fresh hy hs (.body hc.kind hc.decode hb)

end fresh

/-! ## Waiting -/

/-- A hanging handler that is cancelled ends in one move. -/
theorem inside_endHanging {answers : Bool} {params : Json} (hy : w.runs[r]? = some y)
    (hf : ∀ o, y.stage ≠ .finished o) (hk : ∀ k, y.stage ≠ .calling k)
    (he : y.MayEnd
      (y.handler.respond (if answers then .returned params else .failed cancelledFailure))) :
    Inside w (w.endHanging r y answers params) := by
  refine (aside_report w (.sawCancel y.handler.label)).inside.trans ?_
  refine inside_finish hy hf ?_ fun k x hs => absurd hs (hk k)
  cases answers <;> exact he

/-- A handler whose gate is open ends in one move. -/
theorem inside_passGate {params : Json} (hy : w.runs[r]? = some y)
    (hf : ∀ o, y.stage ≠ .finished o) (hk : ∀ k, y.stage ≠ .calling k)
    (he : y.MayEnd (y.handler.respond (.returned params))) :
    Inside w (w.passGate r y params) := by
  refine (aside_report w (.passedGate y.handler.label (w.isCancelled y))).inside.trans ?_
  exact inside_finish hy hf he fun k x hs => absurd hs (hk k)

/-- What a handler answers that passes the outcome of a call on. -/
theorem respond_ofCall (h : Handler) (outcome : Except CallError Json) :
    h.answer (outcome.mapError CallError.toFailure) = h.respond (.ofCall outcome) := by
  cases outcome <;> rfl

/-- A handler passes the outcome of its own call on, once the call is over. -/
theorem inside_passOn {outcome : Except CallError Json} (hy : w.runs[r]? = some y)
    (hf : ∀ o, y.stage ≠ .finished o) (he : y.MayEnd (y.handler.respond (.ofCall outcome)))
    (hk : ∀ (k : Nat) (x : Call), y.stage = .calling k → w.calls[k]? = some x →
      x.isOver = true) : Inside w (w.passOn r y outcome) := by
  refine (aside_report w (.called y.handler.label outcome)).inside.trans ?_
  rw [passOn, answer, respond_ofCall]
  exact inside_finish hy hf he hk

/-- A run that waits for a call of its own goes on when it is over. -/
theorem inside_checkOwnCall {k : Nat} (hy : w.runs[r]? = some y) (hs : y.stage = .calling k) :
    Inside w (w.checkOwnCall r y k) := by
  obtain ⟨hw, hr⟩ := inside_checkCall w k
  have hy' : (w.checkCall k).runs[r]? = some y := by rw [hr, hy]
  refine hw.trans ?_
  rw [checkOwnCall]
  split
  · next outcome hk =>
    refine inside_passOn hy' (by simp [hs]) (.calling hs outcome) fun k' x hk' hx => ?_
    obtain rfl : k = k' := by simpa [hs] using hk'
    rw [hx] at hk
    have hx' : x.state = .ended outcome := Option.some.inj hk
    simp [Call.isOver, hx']
  · have hm : ((w.checkCall k).modifyRun r fun y => { y with stage := .calling k }) =
        w.checkCall k := by
      have hy'' : ({ y with stage := .calling k } : Run) = y := by rw [← hs]
      rw [modifyRun, modify_eq_set hy', hy'', set_eq_self hy']
    rw [hm]
    exact .refl _

/-! ## The work of handlers -/

/-- A handler that does not panic at its opening has sent its message, reported that it could not,
or taken itself out. -/
theorem opening_eq_ok {w' : Network} (h : w.opening y = .ok w') :
    y.handler.Starts ∧ Aside w w' := by
  rw [opening] at h
  split at h
  · -- Nothing to open with.
    next ho =>
    obtain rfl := Except.ok.inj h
    refine ⟨?_, .refl w⟩
    intro text ht
    cases ho.symm.trans ht
  · cases h
  · -- It sends something, or reports the error of the attempt.
    next method params ho =>
    constructor
    · intro text ht
      cases ho.symm.trans ht
    · split at h
      · next hs =>
        obtain rfl := Except.ok.inj h
        exact aside_sendVia hs
      · obtain rfl := Except.ok.inj h
        exact aside_report w _
  · -- It retracts a registration, which is its own affair.
    next method ho =>
    obtain rfl := Except.ok.inj h
    refine ⟨?_, aside_unregisterAll w _ _⟩
    intro text ht
    cases ho.symm.trans ht

/-- A handler that stops at its opening is one that panics there. -/
theorem opening_eq_error {text : String} (h : w.opening y = .error text) :
    y.handler.opening = .panic text := by
  rw [opening] at h
  split at h
  · cases h
  · next ho =>
    obtain rfl := Except.error.inj h
    exact ho
  · split at h <;> cases h
  · cases h

section fresh

variable (hy : w.runs[r]? = some y) (hs : y.stage = .fresh)

include hy hs

/-- A run begins a call of its own. It waits for it, unless the call is over at once. -/
theorem inside_forward {w' : Network} {k : Nat} {method : String} {params : Json}
    (hc : y.Concludes params) (ho : y.handler.outcome = .forward method)
    (h : w.startCall y.dispatcher method params (some .any) (some (.handler r)) = .ok (k, w')) :
    Inside w (w'.checkOwnCall r y k) := by
  obtain ⟨u, x, l, l', hu, -, hl, hs', hn, hx, hw, ht, -, -, rfl, hr⟩ := startCall_eq_ok h
  have hi : Inside w u := ⟨hu.moves, hu.loops⟩
  have hy : u.runs[r]? = some y := by rwa [hu.runs]
  rw [checkOwnCall]
  rcases checkCall_begun hl hs' hr hx with ⟨hd, hr'⟩ | ⟨hd, hc'⟩
  · -- There is no time at all: the run goes on with that.
    obtain ⟨q, hq, he⟩ := hr'
    have hm : Inside w (w'.checkCall u.calls.length) := by
      refine (hi.trans (.single (.callLate hl hs' hn hx ht hd) ?_)).roused ⟨q, hq, he⟩
      rw [loops_expired, loops_begun]
    have hk : ((w'.checkCall u.calls.length).calls[u.calls.length]?).map Call.state =
        some (.ended (.error (.timedOut x.method))) := by
      rw [he]
      simp [expired, withdraw, begun, endCall, modifyCall, emit]
    simp only [hk]
    refine hm.trans (inside_passOn ?_ (by simp [hs]) ?_ (by simp [hs]))
    · rw [he]
      exact hy
    · exact .fresh hs (.body hc.kind hc.decode (.forward hc.starts ho _))
  · -- There is time: the call waits, and the run with it.
    have hk : ((w'.checkCall u.calls.length).calls[u.calls.length]?).map Call.state =
        some .waiting := by
      obtain ⟨q, -, he⟩ := hr
      rw [hc', he]
      simp [begun, hx]
    simp only [hk]
    rw [hc']
    have hf : Move u ((u.begun x l' params).modifyRun r
        fun y => { y with stage := .calling u.calls.length }) :=
      .forward hl hs' hn hx hw ht hd hy hs (.call hc ho _)
    refine (hi.trans (.single hf (loops_begun u x l' params))).roused ?_
    exact hr.map (f := fun w' => w'.modifyRun r
      fun y => { y with stage := .calling u.calls.length }) fun _ _ => rfl

/-- A handler comes to its answer, or waits for it. -/
theorem inside_conclude {params : Json} (hc : y.Concludes params) :
    Inside w (w.conclude r y params) := by
  rw [conclude]
  cases ho : y.handler.outcome with
  | echo => exact inside_respond hy hs hc (.echo hc.starts ho)
  | value v => exact inside_respond hy hs hc (.value hc.starts ho)
  | fail f => exact inside_respond hy hs hc (.fail hc.starts ho)
  | panic text => exact inside_respond hy hs hc (.panic hc.starts ho)
  -- A value that cannot be written is answered with a failure, if an answer is due at all.
  | unserializable =>
    have ha : y.handler.answer y.handler.unserializableAnswer =
        y.handler.respond .unserializable := by
      rw [Handler.unserializableAnswer, Handler.respond]
      split
      · next hk => simp [Handler.answer, hk]
      · rfl
    simp only [answer, ha]
    exact inside_respond hy hs hc (.unserializable hc.starts ho)
  -- The handlers that wait end at once if what they wait for has come already.
  | wasCancelled => exact inside_respond hy hs hc (.wasCancelled hc.starts ho _)
  | hang answers =>
    simp only [hang]
    split
    · exact inside_endHanging hy (by simp [hs]) (by simp [hs])
        (.fresh hs (.body hc.kind hc.decode (.hang hc.starts ho)))
    · exact .single (.wait hy hs (.hang hc ho) (by simp)) rfl
  | awaitGate gate =>
    simp only [awaitGate]
    split
    · exact inside_passGate hy (by simp [hs]) (by simp [hs])
        (.fresh hs (.body hc.kind hc.decode (.awaitGate hc.starts ho)))
    · refine (Inside.single (.wait hy hs (.gate hc ho) (by simp)) rfl).trans ?_
      exact .single (.surroundings w.pipes w.registrations w.openGates _ (Nat.le_refl _)) rfl
  -- A handler that forwards makes a call of its own; without an outlet it ends with that error.
  | forward method =>
    simp only
    split
    · exact inside_passOn hy (by simp [hs])
        (.fresh hs (.body hc.kind hc.decode (.forward hc.starts ho _))) (by simp [hs])
    · next h => exact inside_forward hy hs hc ho h

/-- A notification is served in moves of its own run, whatever its body does. -/
theorem inside_serveNotification (hk : y.handler.kind.isRequest = false) (params : Option Json) :
    Inside w (w.serveNotification r y params) := by
  refine (aside_report w (.entered y.handler.label params)).inside.trans ?_
  rw [serveNotification]
  split
  · next w' h =>
    have ha := (opening_eq_ok h).2
    refine ha.inside.trans (inside_finish_fresh ?_ hs (.notification hk))
    rw [ha.runs]
    exact hy
  · refine (aside_log _ _).inside.trans (inside_finish_fresh ?_ hs (.notification hk))
    exact hy

/-- So is a request whose parameters fit. -/
theorem inside_serveRequest {params : Json} (hk : y.handler.kind.isRequest = true)
    (hd : y.handler.decode y.params = .ok params) : Inside w (w.serveRequest r y params) := by
  refine (aside_report w (.entered y.handler.label (some params))).inside.trans ?_
  rw [serveRequest]
  split
  · next w' h =>
    obtain ⟨hst, ha⟩ := opening_eq_ok h
    refine ha.inside.trans (inside_conclude ?_ hs ⟨hk, hd, hst⟩)
    rw [ha.runs]
    exact hy
  · next text h =>
    have hy' : (w.report (.entered y.handler.label (some params))).runs[r]? = some y := hy
    exact inside_finish_fresh hy' hs (.body hk hd (.panicAtOnce (opening_eq_error h)))

/-- A notification handler serves, or skips a message that does not fit. -/
theorem inside_runNotification (hk : y.handler.kind.isRequest = false) :
    Inside w (w.runNotification r y) := by
  rw [runNotification]
  split
  · exact inside_serveNotification hy hs hk none
  · split
    · next cause _ =>
      have hy' : (w.log (.badParams y.method cause)).runs[r]? = some y := hy
      exact (aside_log w _).inside.trans (inside_finish_fresh hy' hs (.notification hk))
    · exact inside_serveNotification hy hs hk _
  all_goals next h => simp [h, HandlerKind.isRequest] at hk

/-- A request handler serves, or answers that the parameters do not fit. -/
theorem inside_runRequest (hk : y.handler.kind.isRequest = true) :
    Inside w (w.runRequest r y) := by
  rw [runRequest]
  cases h : y.handler.kind with
  | request | command =>
    simp only
    split
    · next hd => exact inside_finish_fresh hy hs (.undecodable hk hd)
    · next hd => exact inside_serveRequest hy hs hk hd
  | _ => simp [h, HandlerKind.isRequest] at hk

/-- A handler is called. -/
theorem inside_begin : Inside w (w.begin r y) := by
  rw [begin]
  split
  · next hk => exact inside_runRequest hy hs hk
  · next hk => exact inside_runNotification hy hs (Bool.eq_false_iff.mpr hk)

end fresh

/-- The turn of a handler. -/
theorem inside_runHandler (w : Network) (r : Nat) : Inside w (w.runHandler r) := by
  rw [runHandler]
  split
  · exact .refl w
  · next y hy =>
    cases hs : y.stage with
    | fresh => exact inside_begin hy hs
    -- A run that waits looks whether it may go on, and waits on if it may not.
    | hanging params =>
      simp only
      split
      · next ho =>
        split
        · exact inside_endHanging hy (by simp [hs]) (by simp [hs]) (.hanging hs ho)
        · exact .refl w
      · exact .refl w
    | atGate gate params =>
      simp only
      split
      · exact inside_passGate hy (by simp [hs]) (by simp [hs]) (.atGate hs)
      · exact .refl w
    | calling k => exact inside_checkOwnCall hy hs
    | finished o => exact .refl w

/-! ## Waking runs -/

/-- An open gate wakes those who wait at it, and they go on by themselves. -/
theorem inside_openGate (w : Network) (gate : String) : Inside w (w.openGate gate) := by
  rw [openGate]
  have hm := Move.surroundings (w := w) w.pipes w.registrations (gate :: w.openGates)
    (w.gateQueue.partition fun e => e.1 == gate).2 (Nat.le_refl _)
  exact (Inside.single hm rfl).roused (Roused.foldl (fun w e => roused_wake w _) _ _)

end Parley.Network

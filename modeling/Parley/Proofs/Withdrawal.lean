import Parley.Proofs.Account
import Parley.Proofs.Binding
import Parley.Proofs.Refusal

/-!
# What is sent on purpose, and what is taken back

Users send notifications, and so do handlers when they are called. Whatever else goes out as a
notification takes a request back. So the cancellations that a connection accepts are told apart by
where they come from, and each request whose call is given up while it is pending has exactly one.

- `Network.sent`: what a run sends on purpose.
- `Network.Accounted.perform`, `Network.Accounted.act`, `Network.Accounted.run`: every task, every
  action and every run keeps the account.
- `Network.withdraws_abandoned`: the account of a run.
-/

namespace Parley.Network

variable {w w' : Network} {k c n : Nat} {id : Id} {x : Call} {said : List (Nat × Message)}

/-! ## What users and handlers send -/

/-- The connection that accepts a message which is sent through a dispatcher, with the message; none
without one. -/
def posted (w : Network) (d : Nat) (m : Message) : List (Nat × Message) :=
  ((w.boundConn? d).map fun c => (c, m)).toList

/-- What a handler sends as soon as it is called. -/
def opens (w : Network) (x : Run) : List (Nat × Message) :=
  match x.handler.opening with
  | .send method params => w.posted x.dispatcher (.notification method params)
  | _ => []

/-- What a handler sends of its own when a run of it has its turn: it is called at most once, and
only with params that fit. -/
def utters (w : Network) (x : Run) : List (Nat × Message) :=
  match x.stage with
  | .fresh =>
    if x.handler.kind = .emptyNotification ∨ (x.handler.decode x.params).toOption.isSome then
      w.opens x
    else []
  | _ => []

theorem utters_eq_nil {x : Run} (h : x.stage ≠ .fresh) : w.utters x = [] := by
  rw [utters]
  split
  · next hx => exact absurd hx h
  · rfl

/-- What is sent on purpose in the turn of a task. -/
def sentIn (w : Network) : Task → List (Nat × Message)
  | .handler r => (w.runs[r]?).elim [] w.utters
  | _ => []

/-- What is sent on purpose in the turns of some tasks, at most as many as said. -/
def sentBySettle : Nat → Network → List (Nat × Message)
  | 0, _ => []
  | n + 1, w =>
    match w.ready with
    | [] => []
    | t :: rest =>
      let u := { w with ready := rest }
      u.sentIn t ++ sentBySettle n (u.perform t)

/-- What is sent on purpose by an action. -/
def sentBy (w : Network) : Action → List (Nat × Message)
  | .notify sender method params =>
    match w.dispatcherOf sender, params with
    | .ok d, .ok params => w.posted d (.notification method params)
    | _, _ => []
  | .settle turns => sentBySettle turns w
  | _ => []

/-- What is sent on purpose by some actions, one after another. -/
def sent (w : Network) : List Action → List (Nat × Message)
  | [] => []
  | a :: actions => w.sentBy a ++ (w.act a).2.sent actions

/-- A message is sent over the connection that a dispatcher is bound to, or not at all. -/
theorem sendVia_cases (w : Network) (d : Nat) (m : Message) :
    (w.posted d m = [] ∧ w.sendVia d m = .error .notConnected) ∨
      ∃ c v, w.posted d m = [(c, m)] ∧ w.sendVia d m = .ok v ∧
        v.journal = .accepted c m :: w.journal ∧ v.keys = w.keys := by
  cases hb : w.boundConn? d with
  | none => exact .inl ⟨by rw [posted, hb]; rfl, by rw [sendVia, hb]; rfl⟩
  | some c =>
    obtain ⟨l, hl, ho⟩ := exists_open_link hb
    obtain ⟨v, hv, hj, hk⟩ := sendOn_of_open hl ho m
    exact .inr ⟨c, v, by rw [posted, hb]; rfl, by rw [sendVia, hb, Option.bind_some, hv], hj, hk⟩

theorem silent_modifyScript (w : Network) (c : Nat) (f : Input × Output → Input × Output) :
    Silent w (w.modifyScript c f) := .of_same rfl rfl

/-- An action that may be refused changes nothing then. -/
theorem silent_attempt {o : Except CallError Network} (h : ∀ v, o = .ok v → Silent w v) :
    Silent w (w.attempt o).2 := by
  cases o with
  | error e => exact .refl w
  | ok v => exact h v rfl

theorem silent_attemptMade {o : Except CallError (Nat × Network)}
    (h : ∀ n v, o = .ok (n, v) → Silent w v) : Silent w (w.attemptMade o).2 := by
  cases o with
  | error e => exact .refl w
  | ok p => exact h p.1 p.2 rfl

namespace Accounted

/-! ## The turns of handlers -/

section handler

variable {r : Nat} {x : Run}

/-- What a handler does first is silent, but for what it sends. -/
theorem opening (h : w.Accounted said) (x : Run) :
    (∀ v, w.opening x = .ok v → v.Accounted (said ++ w.opens x)) ∧
      ∀ text, w.opening x = .error text → w.opens x = [] := by
  rw [Network.opening, opens]
  -- By what a handler opens with; only a message that is sent says something.
  cases x.handler.opening with
  | nothing =>
    refine ⟨fun v hv => ?_, by rintro _ ⟨⟩⟩
    obtain rfl := Except.ok.inj hv
    rwa [List.append_nil]
  | panic text => exact ⟨by rintro _ ⟨⟩, fun _ _ => rfl⟩
  | retract method =>
    refine ⟨fun v hv => ?_, by rintro _ ⟨⟩⟩
    obtain rfl := Except.ok.inj hv
    rw [List.append_nil]
    exact h.silent (silent_unregisterAll w _ _)
  | send method params =>
    rcases w.sendVia_cases x.dispatcher (.notification method params) with
      ⟨hn, hs⟩ | ⟨c, v, hp, hs, hj, hk⟩
    · simp only [hs, hn, List.append_nil]
      refine ⟨fun v hv => ?_, by rintro _ ⟨⟩⟩
      obtain rfl := Except.ok.inj hv
      exact h.silent (silent_report w _)
    · simp only [hs, hp]
      refine ⟨fun u hu => ?_, by rintro _ ⟨⟩⟩
      obtain rfl := Except.ok.inj hu
      exact h.sends hk hj

theorem checkOwnCall (h : w.Accounted said) (hk : w.Stands k) :
    (w.checkOwnCall r x k).Accounted said := by
  have hc := h.checkCall hk
  rw [Network.checkOwnCall]
  split
  · exact hc.silent (silent_passOn _ r x _)
  · exact hc.silent (.of_same rfl rfl)

/-- Coming to an answer is silent, unless the request is sent on and its call has no time at all. -/
theorem conclude (h : w.Accounted said) (hp : Path {} w) (params : Json) :
    (w.conclude r x params).Accounted said := by
  rw [Network.conclude]
  cases x.handler.outcome with
  | hang answers => exact h.silent (silent_hang w r x answers params)
  | awaitGate gate => exact h.silent (silent_awaitGate w r x gate params)
  | forward method =>
    simp only
    split
    · exact h.silent (silent_passOn w r x _)
    · next hs => exact (h.silent (silent_startCall hs)).checkOwnCall (hp.stands_startCall hs)
  | _ => exact h.silent (silent_finish w r _)

theorem serveNotification (h : w.Accounted said) (params : Option Json) :
    (w.serveNotification r x params).Accounted (said ++ w.opens x) := by
  obtain ⟨hok, herr⟩ := (h.silent (silent_report w (.entered x.handler.label params))).opening x
  rw [Network.serveNotification]
  split
  · next v hv => exact (hok v hv).silent (silent_finish v r _)
  · next text ht =>
    have hnone : w.opens x = [] := herr text ht
    rw [hnone, List.append_nil]
    exact h.silent (((silent_report w _).trans (silent_log _ _)).trans (silent_finish _ r _))

theorem serveRequest (h : w.Accounted said) (hp : Path {} w) (params : Json) :
    (w.serveRequest r x params).Accounted (said ++ w.opens x) := by
  have hreport := aside_report w (.entered x.handler.label (some params))
  obtain ⟨hok, herr⟩ :=
    (h.silent (silent_report w (.entered x.handler.label (some params)))).opening x
  rw [Network.serveRequest]
  split
  · next v hv =>
    exact (hok v hv).conclude (hp.moves (hreport.moves.trans (opening_eq_ok hv).2.moves)) params
  · next text ht =>
    have hnone : w.opens x = [] := herr text ht
    rw [hnone, List.append_nil]
    exact h.silent ((silent_report w _).trans (silent_finish _ r _))

theorem runNotification (h : w.Accounted said) (hx : x.stage = .fresh)
    (hk : x.handler.kind.isRequest = false) :
    (w.runNotification r x).Accounted (said ++ w.utters x) := by
  rw [Network.runNotification, utters, hx]
  cases hkind : x.handler.kind with
  | emptyNotification =>
    simp only [true_or, if_true]
    exact h.serveNotification none
  | notification =>
    cases hd : x.handler.decode x.params with
    | error cause =>
      simp only [reduceCtorEq, false_or, Except.toOption, Option.isSome_none, Bool.false_eq_true,
        if_false, List.append_nil]
      exact h.silent ((silent_log w _).trans (silent_finish _ r _))
    | ok params =>
      simp only [reduceCtorEq, false_or, Except.toOption, Option.isSome_some, if_true]
      exact h.serveNotification (some params)
  | request | command => simp [hkind, HandlerKind.isRequest] at hk

theorem runRequest (h : w.Accounted said) (hp : Path {} w) (hx : x.stage = .fresh)
    (hk : x.handler.kind.isRequest = true) :
    (w.runRequest r x).Accounted (said ++ w.utters x) := by
  -- A request that cannot be read is answered, and nothing is said by its handler.
  rw [utters, hx]
  cases hd : x.handler.decode x.params with
  | error cause =>
    have hne : x.handler.kind ≠ .emptyNotification := by
      intro he
      simp [he, HandlerKind.isRequest] at hk
    have hrun : w.runRequest r x = w.finish r (.error (badParams cause)) := by
      rw [Network.runRequest]
      cases hkind : x.handler.kind <;> simp [hkind, hd, HandlerKind.isRequest] at hk ⊢
    simp only [hrun, hne, false_or, Except.toOption, Option.isSome_none, Bool.false_eq_true,
      if_false, List.append_nil]
    exact h.silent (silent_finish w r _)
  | ok params =>
    have hrun : w.runRequest r x = w.serveRequest r x params := by
      rw [Network.runRequest]
      cases hkind : x.handler.kind <;> simp [hkind, hd, HandlerKind.isRequest] at hk ⊢
    simp only [hrun, Except.toOption, Option.isSome_some, or_true, if_true]
    exact h.serveRequest hp params

/-- The turn of a handler. -/
theorem runHandler (h : w.Accounted said) (hp : Path {} w) (r : Nat) :
    (w.runHandler r).Accounted (said ++ w.sentIn (.handler r)) := by
  rw [Network.runHandler, sentIn]
  cases hx : w.runs[r]? with
  | none =>
    rw [Option.elim_none, List.append_nil]
    exact h
  | some x =>
    rw [Option.elim_some]
    by_cases hs : x.stage = .fresh
    · simp only [hs, begin]
      split
      · next hk => exact h.runRequest hp hs hk
      · next hk => exact h.runNotification hs (by simpa using hk)
    · -- The handler was called before, and sends no more.
      rw [utters_eq_nil hs, List.append_nil]
      cases hst : x.stage with
      | fresh => exact absurd hst hs
      | hanging params =>
        simp only [hst]
        split
        · split
          · exact h.silent (silent_endHanging w r x _ params)
          · exact h
        · exact h
      | atGate gate params =>
        simp only [hst]
        split
        · exact h.silent (silent_passGate w r x params)
        · exact h
      | calling k =>
        simp only [hst]
        exact h.checkOwnCall (hp.stands k)
      | finished outcome =>
        simp only [hst]
        exact h

end handler

/-! ## A run -/

/-- What is silent, when nothing is sent on purpose. -/
theorem keeps (h : w.Accounted said) (hs : Silent w w') : w'.Accounted (said ++ []) := by
  rw [List.append_nil]
  exact h.silent hs

/-- The turn of a task. -/
theorem perform (h : w.Accounted said) (hp : Path {} w) (t : Task) :
    (w.perform t).Accounted (said ++ w.sentIn t) := by
  cases t with
  | reader c => exact h.keeps (silent_readLoop w c)
  | writer c => exact h.keeps (silent_writeLoop c _ w)
  | handler r => exact h.runHandler hp r
  | caller k =>
    show (w.checkCall k).Accounted (said ++ [])
    rw [List.append_nil]
    exact h.checkCall (hp.stands k)

/-- The turns of some tasks. -/
theorem settle (n : Nat) (h : w.Accounted said) (hp : Path {} w) :
    (settle n w).Accounted (said ++ sentBySettle n w) := by
  induction n generalizing w said with
  | zero =>
    rw [sentBySettle, List.append_nil]
    exact h
  | succ n ih =>
    cases hq : w.ready with
    | nil =>
      simp only [Network.settle, Network.step, sentBySettle, hq, List.append_nil]
      exact h
    | cons t rest =>
      have hpop : Path {} { w with ready := rest } := hp.pop hq
      have hrest : ({ w with ready := rest } : Network).Accounted said :=
        h.silent (.of_same rfl rfl)
      simp only [Network.settle, Network.step, sentBySettle, hq]
      rw [← List.append_assoc]
      exact ih (hrest.perform hpop t) (hpop.moves (moves_perform _ t))

/-- A user sends a notification. -/
theorem notify {sender : Sender} {method : String} {params : Except Json.Cause Json}
    (h : w.Accounted said) : (w.attempt (w.notify sender method params)).2.Accounted
      (said ++ w.sentBy (.notify sender method params)) := by
  cases hd : w.dispatcherOf sender with
  | error e =>
    simp only [Network.notify, sentBy, hd, List.append_nil]
    exact h
  | ok d =>
    cases params with
    | error cause =>
      simp only [Network.notify, sentBy, hd, List.append_nil]
      exact h
    | ok params =>
      simp only [Network.notify, sentBy, hd]
      rcases w.sendVia_cases d (.notification method params) with ⟨hn, hs⟩ | ⟨c, v, hp, hs, hj, hk⟩
      · rw [hs, hn, List.append_nil]
        exact h
      · rw [hs, hp]
        exact h.sends hk hj

/-- A user sends a request, whose time may be over at once. -/
theorem call {sender : Sender} {method : String} {params : Except Json.Cause Json}
    {shape : Option Json.Shape} (h : w.Accounted said) (hp : Path {} w) :
    (w.attemptMade (w.call sender method params shape)).2.Accounted said := by
  cases hd : w.dispatcherOf sender with
  | error e =>
    simp only [Network.call, hd]
    exact h
  | ok d =>
    cases params with
    | error cause =>
      simp only [Network.call, hd]
      exact h
    | ok params =>
      simp only [Network.call, hd]
      cases hs : w.startCall d method params shape none with
      | error e => exact h
      | ok p => exact (h.silent (silent_startCall hs)).checkCall (hp.stands_startCall hs)

/-- An action. -/
theorem act (h : w.Accounted said) (hp : Path {} w) (a : Action) :
    (w.act a).2.Accounted (said ++ w.sentBy a) := by
  cases a with
  | settle n => exact h.settle n hp
  | notify => exact h.notify
  | call =>
    rw [sentBy, List.append_nil]
    · exact h.call hp
    · simp
    · simp
  | dropCall k =>
    show (w.dropCall k).Accounted (said ++ [])
    rw [List.append_nil]
    exact h.dropCall hp k
  -- None of these sends anything of its own: what they do is silent.
  | openScript | openPipes | openDispatcher | keep => exact h.keeps (.of_same rfl rfl)
  | feed c | fault c => exact h.keeps ((silent_modifyScript w c _).roused (roused_wakeReader _ c))
  | setOutput c => exact h.keeps ((silent_modifyScript w c _).roused (roused_wakeBusyWriter _ c))
  | dropDispatcher d => exact h.keeps (silent_dropDispatcher w d)
  | dropConn c => exact h.keeps (silent_disconnect w c false)
  | connect c d => exact h.keeps (silent_connect w c d)
  | disconnect c flush => exact h.keeps (silent_disconnect w c flush)
  | advance secs => exact h.keeps (silent_advance w secs)
  | openGate gate => exact h.keeps (silent_openGate w gate)
  | handle d method handler => exact h.keeps (silent_attempt fun v => silent_handle)
  | register d descriptor hooks => exact h.keeps (silent_attemptMade fun n v => silent_register)
  | unregister serial => exact h.keeps (silent_unregister w serial)

/-- The account is kept by every run. -/
theorem run (h : w.Accounted said) (hp : Path {} w) (actions : List Action) :
    (run w actions).Accounted (said ++ w.sent actions) := by
  induction actions generalizing w said with
  | nil =>
    rw [sent, List.append_nil]
    exact h
  | cons a actions ih =>
    rw [sent, ← List.append_assoc]
    exact ih (h.act hp a) (hp.trans (path_act w a))

theorem start : ({} : Network).Accounted [] where
  balance := fun _ _ => ⟨∅, Finset.empty_subset _, by simp, rfl⟩
  withdrawn := fun hk => absurd hk (Finset.notMem_empty _)
  unborn := fun _ => rfl

end Accounted

/-! ## Who is abandoned -/

/-- As long as its connection has not given all its identifiers, a call is alone under its own. -/
theorem card_abandoned (hB : w.Booked) (hn : w.started c ≤ Int64.size) (hx : w.calls[k]? = some x)
    (hk : x.key = (c, id)) :
    (w.abandoned c id).card = if (w.fateOf k x).isAbandoned = true then 1 else 0 := by
  obtain ⟨rfl, rfl⟩ := Prod.mk.inj hk
  -- The ids have not come round yet, so no other call of this connection has this one.
  have halone : ∀ {n}, w.keys[n]? = some (x.conn, x.id) → n = k := fun hkey => by
    rw [keys, List.getElem?_map] at hkey
    obtain ⟨y, hy, hyk⟩ := Option.map_eq_some_iff.mp hkey
    obtain ⟨hyc, hyi⟩ := Prod.mk.inj hyk
    exact hB.apart hn hy hx hyc rfl hyi
  have hone : w.abandoned x.conn x.id = if (w.fateOf k x).isAbandoned = true then {k} else ∅ := by
    ext n
    rw [abandoned, mem_fated]
    split
    · next ha =>
      rw [Finset.mem_singleton]
      refine ⟨fun hm => halone hm.1, ?_⟩
      rintro rfl
      exact ⟨keys_of_call hx, ha⟩
    · next ha =>
      refine iff_of_false (fun hm => ha ?_) (Finset.notMem_empty n)
      rw [fateOf, ← halone hm.1]
      exact hm.2
  rw [hone]
  split <;> rfl

/-- Nobody is abandoned under an identifier that was never given. -/
theorem abandoned_of_not_given (h : (c, id) ∉ w.keys) : w.abandoned c id = ∅ := by
  refine Finset.eq_empty_of_forall_notMem fun n hn => ?_
  exact h (List.mem_of_getElem? (mem_fated.mp hn).1)

/-- No call loses its identifier as long as there are enough of them. -/
theorem stranded_eq_empty (hS : w.Strands) (hn : w.started c < UInt64.size) :
    w.stranded c id = ∅ := by
  refine Finset.eq_empty_of_forall_notMem fun n hm => ?_
  obtain ⟨hk, hf⟩ := mem_stranded.mp hm
  exact Nat.not_le.mpr hn (hS n c id hk hf)

/-! ## Cancellations that arrive -/

/-- A cancellation is read back as it was written. -/
theorem ofBytes_cancelMessage (id : Id) :
    Message.ofBytes (cancelMessage id).toBytes = .ok (cancelMessage id) := by
  refine Message.ofBytes_shallow (m := cancelMessage id) (fun v hv => ?_) ?_
  · rw [List.mem_singleton.mp hv]
    exact Json.all_ofMembers (List.forall_mem_singleton.mpr (Message.all_idToJson id))
  · rw [Message.depth_toJson, cancelMessage, Message.nesting,
      Json.depth_ofMembers (List.pairwise_singleton _ _), Json.depthMembers, Message.depth_idToJson]
    decide

/-- Where it comes in, it cancels the run that serves the request under its identifier, if there is
one. -/
theorem route_cancelMessage (w : Network) (c d : Nat) (id : Id) :
    w.route c d (cancelMessage id) = (w.held d id).elim w w.cancelRun := by
  obtain ⟨params, hm, hid⟩ := cancelMessage_id id
  rw [hm, route, receiveNotification, if_pos rfl, receiveCancel, hid]
  cases hr : w.held d id with
  | none =>
    rw [held] at hr
    simp only [hr, Option.elim_none]
  | some r =>
    rw [held] at hr
    simp only [hr, Option.elim_some]

/-! ## The account of a run -/

/-- **One cancellation for each abandoned request.** The cancellations of an identifier that a
connection accepts are those that somebody sends on purpose, and exactly one if the call under this
identifier was given up while it was pending: because it was dropped, or because its time was over.
None goes out for a call that was answered or lost its connection, and none for an identifier under
which no call began.

A call is pending as long as it has its entry in the table of an open link. If it is given up then,
the cancellation is accepted right away, behind its request; the entry is gone for good, and who
waits is told that the time is over or nothing at all, so it is not a call whose result failed to
convert. A cancellation is read back as it was written, and whoever takes it in looks for exactly
the identifier of the request.

Only a connection that has given all integers of 64 bits gives one again. Then a call that is
dropped may take back the request that has its identifier by now, instead of its own. -/
theorem withdraws_abandoned (actions : List Action) :
    let w := run {} actions
    let said := sent {} actions
    (∀ c id, ∃ s ⊆ w.stranded c id, (∀ n ∈ s, w.Ousted n c id) ∧
      w.journal.withdrawals c id =
        said.count (c, cancelMessage id) + (w.abandoned c id).card + s.card) ∧
    (∀ c, w.started c < UInt64.size → ∀ id,
      ((c, id) ∉ w.keys → w.journal.withdrawals c id = said.count (c, cancelMessage id)) ∧
      ∀ k x, w.calls[k]? = some x → x.key = (c, id) →
        w.journal.withdrawals c id = said.count (c, cancelMessage id) +
          if (w.fateOf k x).isAbandoned = true then 1 else 0) ∧
    (∀ k x, w.calls[k]? = some x →
      (w.fateOf k x = .pending ↔
        ∃ l, w.link? x.conn = some l ∧ l.isOpen = true ∧ l.pending.lookup x.id = some k) ∧
      (w.fateOf k x = .pending →
        (w.dropCall k).journal =
          .dropped k :: .accepted x.conn (cancelMessage x.id) :: w.journal ∧
        (x.isOverdue w.clock = true → (w.checkCall k).journal =
          .ended k (.error (.timedOut x.method)) ::
            .accepted x.conn (cancelMessage x.id) :: w.journal)) ∧
      ((w.fateOf k x).isAbandoned = true →
        w.journal.Withdrawn k x.conn x.id ∧
        (∀ more, (x.id, k) ∉ (run w more).table x.conn) ∧
        ∀ o ∈ w.journal.told k, o = .error (.timedOut x.method))) ∧
    ∀ id, Message.ofBytes (cancelMessage id).toBytes = .ok (cancelMessage id) ∧
      ∀ (v : Network) c d, v.route c d (cancelMessage id) = (v.held d id).elim v v.cancelRun := by
  intro w said
  have hw : Reachable w := ⟨actions, rfl⟩
  have hA : w.Accounted said := Accounted.start.run (.refl _) actions
  obtain ⟨hO, hI⟩ := hw.inOrder
  refine ⟨hA.balance, fun c hc id => ?_, fun k x hx => ?_,
    fun id => ⟨ofBytes_cancelMessage id, fun v c d => route_cancelMessage v c d id⟩⟩
  · -- No identifier was given twice, so no call has lost its own.
    have hcount : w.journal.withdrawals c id =
        said.count (c, cancelMessage id) + (w.abandoned c id).card := by
      obtain ⟨s, hs, -, hcount⟩ := hA.balance c id
      rw [stranded_eq_empty hO.strands hc, Finset.subset_empty] at hs
      rw [hcount, hs, Finset.card_empty, Nat.add_zero]
    refine ⟨fun hn => ?_, fun k x hx hk => ?_⟩
    · rw [hcount, abandoned_of_not_given hn, Finset.card_empty, Nat.add_zero]
    · rw [hcount, card_abandoned hO.booked (Nat.le_of_lt hc) hx hk]
  · have hf := hw.fits hx
    refine ⟨hw.path.pending_iff hx, fun hp => ?_, fun ha => ⟨?_, fun more hm => ?_, fun o ho => ?_⟩⟩
    · have hs := hf.pending_iff.mp hp
      have hwaits := (hw.path.stands k x hx).1 hs
      exact ⟨hwaits.dropCall hx hs, hwaits.checkCall hx hs⟩
    · exact hA.withdrawn (mem_fated.mpr ⟨keys_of_call hx, ha⟩)
    · -- An entry is a call that waits, but the fate of this one is decided for good.
      have hrun : Reachable (run w more) := hw.run more
      obtain ⟨y, hy, hyc, hyi, hys⟩ := hrun.inOrder.1.booked.entry hm
      have hp := (hrun.fits hy).pending_iff.mpr hys
      rw [fateOf, hyc, hyi, ← fateOf, fateOf_run hw (Fate.isDecided_of_isAbandoned ha)] at hp
      rw [hp] at ha
      cases ha
    · exact Fate.outcome_of_isAbandoned ha (hf.outcome_of_mem ho)

/-- One of two calls is dropped, and the time of the other one is over. -/
theorem withdraws_abandoned_dropped :
    let w := run {} [.openScript { requestTimeout := some 5 }, .openDispatcher, .connect 0 0,
      .call (.conn 0) "a" (.ok .null) none, .call (.conn 0) "b" (.ok .null) none, .dropCall 0,
      .advance 5]
    w.journal.withdrawals 0 (.number 0) = 1 ∧ w.journal.withdrawals 0 (.number 1) = 0 ∧
      w.journal.withdrawals 0 (.number 2) = 0 ∧ w.journal.Withdrawn 0 0 (.number 0) ∧
      (w.checkCall 1).journal = .ended 1 (.error (.timedOut "b")) ::
        .accepted 0 (cancelMessage (.number 1)) :: w.journal := by
  intro w
  -- Three ids: one dropped, one late by now, one never used.
  obtain ⟨-, hcount, hcalls, -⟩ := withdraws_abandoned [.openScript { requestTimeout := some 5 },
    .openDispatcher, .connect 0 0, .call (.conn 0) "a" (.ok .null) none,
    .call (.conn 0) "b" (.ok .null) none, .dropCall 0, .advance 5]
  have hstarted : w.started 0 < UInt64.size := by decide +kernel
  obtain ⟨x, hx, hxk⟩ : ∃ x, w.calls[0]? = some x ∧ x.key = (0, .number 0) :=
    ⟨(w.calls[0]?).get (by decide +kernel), (Option.some_get _).symm, by decide +kernel⟩
  obtain ⟨y, hy, hyk, hym, hyd⟩ : ∃ y, w.calls[1]? = some y ∧ y.key = (0, .number 1) ∧
      y.method = "b" ∧ y.isOverdue w.clock = true :=
    ⟨(w.calls[1]?).get (by decide +kernel), (Option.some_get _).symm, by decide +kernel,
      by decide +kernel, by decide +kernel⟩
  have hx' := (hcount 0 hstarted (.number 0)).2 0 x hx hxk
  have hy' := (hcount 0 hstarted (.number 1)).2 1 y hy hyk
  have hnone := (hcount 0 hstarted (.number 2)).1 (by decide +kernel)
  obtain ⟨-, -, habandoned⟩ := hcalls 0 x hx
  obtain ⟨-, hpending, -⟩ := hcalls 1 y hy
  obtain ⟨hxc, hxi⟩ := Prod.mk.inj hxk
  obtain ⟨hyc, hyi⟩ := Prod.mk.inj hyk
  rw [fateOf, hxc, hxi] at hx' habandoned
  rw [fateOf, hyc, hyi] at hy' hpending
  rw [hym] at hpending
  exact ⟨hx'.trans (by decide +kernel), hy'.trans (by decide +kernel),
    hnone.trans (by decide +kernel), (habandoned (by decide +kernel)).1,
    (hpending (by decide +kernel)).2 hyd⟩

end Parley.Network

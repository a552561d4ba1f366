import Parley.Proofs.Dispatchers
import Parley.Proofs.Replies

/-!
# Every request is answered once

A request is answered over the connection that it came from, once at most, and exactly once as long
as that connection lasts. The answer is what its handler stands for: what the body returned, which
is `null` for a command; its failure as it is; or that something went wrong inside. A body whose
params do not fit is never called.

- `Network.Manned`: every run fits its handler, and requests are served by handlers for requests.
- `Network.answers_once`: the whole.
-/

namespace Parley

namespace Network

variable {w w' : Network}

/-! ## Runs and their handlers -/

/-- Every run fits its handler, and requests and only these are served by handlers for requests. -/
structure Manned (w : Network) : Prop where
  tabled : ∀ d ∈ w.dispatchers, d.Tabled
  sound : ∀ y ∈ w.runs, y.Sound
  kind : ∀ y ∈ w.runs, y.handler.kind.isRequest = y.id.isSome

namespace Manned

/-- A run changes, and fits its handler still. -/
theorem change (h : w.Manned) {r : Nat} {f : Run → Run} (hd : ∀ d ∈ w'.dispatchers, d.Tabled)
    (hr : w'.runs = w.runs.modify r f)
    (hf : ∀ y, w.runs[r]? = some y → (f y).Sound ∧ (f y).id = y.id ∧ (f y).handler = y.handler) :
    w'.Manned := by
  have old : ∀ y ∈ w'.runs, y ∈ w.runs ∨ ∃ z, w.runs[r]? = some z ∧ y = f z := by
    intro y hy
    rw [hr] at hy
    obtain ⟨i, hi⟩ := List.getElem?_of_mem hy
    obtain ⟨z, hz, rfl⟩ := getElem?_modify_eq_some hi
    split
    · next he =>
      subst he
      exact .inr ⟨z, hz, rfl⟩
    · exact .inl (List.mem_of_getElem? hz)
  refine ⟨hd, fun y hy => ?_, fun y hy => ?_⟩
  · rcases old y hy with hm | ⟨z, hz, rfl⟩
    · exact h.sound y hm
    · exact (hf z hz).1
  · rcases old y hy with hm | ⟨z, hz, rfl⟩
    · exact h.kind y hm
    · obtain ⟨-, hid, hh⟩ := hf z hz
      rw [hid, hh]
      exact h.kind z (List.mem_of_getElem? hz)

/-- A run begins. -/
theorem add (h : w.Manned) {y : Run} (hd : ∀ d ∈ w'.dispatchers, d.Tabled)
    (hr : w'.runs = w.runs ++ [y]) (hs : y.stage = .fresh)
    (hk : y.handler.kind.isRequest = y.id.isSome) : w'.Manned := by
  refine ⟨hd, fun z hz => ?_, fun z hz => ?_⟩
  · rw [hr] at hz
    rcases List.mem_append.mp hz with hz | hz
    · exact h.sound z hz
    · obtain rfl := List.mem_singleton.mp hz
      exact .of_fresh hs
  · rw [hr] at hz
    rcases List.mem_append.mp hz with hz | hz
    · exact h.kind z hz
    · obtain rfl := List.mem_singleton.mp hz
      exact hk

theorem move (h : w.Manned) (hm : Move w w') : w'.Manned := by
  have ht : ∀ d ∈ w'.dispatchers, d.Tabled := fun y hy => by
    obtain ⟨d, hd⟩ := List.getElem?_of_mem hy
    rcases hm.dispatcher hd with ⟨x, hx, hc⟩ | rfl
    · exact hc.tabled (h.tabled x (List.mem_of_getElem? hx))
    · exact ⟨by simp, by simp⟩
  cases hm with
  | forward hl hs hn hx hw hd' hd hy hf hm =>
    refine h.change ht rfl fun z hz => ⟨?_, rfl, rfl⟩
    obtain rfl := Option.some.inj (hy.symm.trans hz)
    exact Run.Sound.wait hm
  | @spawn c x y hx hr hk hc hi hs =>
    refine h.add ht rfl hs ?_
    rw [hk h.tabled, hi]
    rfl
  | @serve c x y d id hx hr hd hd' hh hc hi hs =>
    refine h.add ht rfl hs ?_
    rw [(h.tabled d (List.mem_of_getElem? hd')).handlerFor hh, hi]
    rfl
  | wait hy hf hm hs =>
    refine h.change ht rfl fun z hz => ⟨?_, rfl, rfl⟩
    obtain rfl := Option.some.inj (hy.symm.trans hz)
    exact Run.Sound.wait hm
  | @receive c d x m =>
    cases hn : w.cancels d m with
    | none =>
      have hr : (w.heed d m).runs = w.runs := by rw [heed, hn, runsAfter, Option.elim_none]
      exact ⟨ht, fun y hy => h.sound y (hr ▸ hy), fun y hy => h.kind y (hr ▸ hy)⟩
    | some r =>
      refine h.change (r := r) (f := fun y => { y with cancelled := true }) ht ?_ fun z hz =>
        ⟨(h.sound z (List.mem_of_getElem? hz)).cancel, rfl, rfl⟩
      show w.runsAfter (w.cancels d m) = _
      rw [hn, runsAfter, Option.elim_some]
  | @finish r y outcome hy hf he hk =>
    obtain ⟨-, -, -, hr⟩ := concluded_rest w r y outcome
    refine h.change ht hr fun z hz => ⟨?_, rfl, rfl⟩
    obtain rfl := Option.some.inj (hy.symm.trans hz)
    exact (h.sound _ (List.mem_of_getElem? hz)).finish he
  | _ => exact ⟨ht, h.sound, h.kind⟩

end Manned

theorem Path.manned (h : Path {} w) : w.Manned :=
  h.keeps (fun hv hm => hv.move hm) (fun _ hv => ⟨hv.tabled, hv.sound, hv.kind⟩)
    (fun hv _ _ _ => ⟨hv.tabled, hv.sound, hv.kind⟩) ⟨by simp, by simp, by simp⟩

/-- What the end of a request may be: its params did not fit, or its handler was called with them
and answers for what its body came to. -/
theorem Manned.answer (h : w.Manned) {y : Run} (hy : y ∈ w.runs) {id : Id} (hi : y.id = some id)
    {o : Except Failure Json} (hs : y.stage = .finished o) :
    (∃ cause, y.handler.decode y.params = .error cause ∧ o = .error (badParams cause)) ∨
      ∃ params b, y.handler.decode y.params = .ok params ∧ y.handler.Yields params b ∧
        o = y.handler.respond b := by
  have hk := h.kind y hy
  rw [hi] at hk
  have ha := h.sound y hy
  rw [Run.Sound, hs] at ha
  cases ha with
  | notification hn => cases hk.symm.trans hn
  | undecodable _ hd => exact .inl ⟨_, hd, rfl⟩
  | body _ hd hb => exact .inr ⟨_, _, hd, hb, rfl⟩

/-- The end of a run is what its handler says to the request. -/
theorem Manned.says (h : w.Manned) {y : Run} (hy : y ∈ w.runs) {id : Id} (hi : y.id = some id)
    {o : Except Failure Json} (hs : y.stage = .finished o) : y.handler.Says y.params o := by
  have hk := h.kind y hy
  rw [hi] at hk
  rcases h.answer hy hi hs with ⟨cause, hd, rfl⟩ | ⟨seen, b, hd, hb, rfl⟩
  · exact Handler.says_badParams hd
  · exact Handler.says_respond hk hd hb

/-- A run whose params do not fit was not called, or has failed with that. -/
theorem Manned.undecodable (h : w.Manned) {y : Run} (hy : y ∈ w.runs) {id : Id}
    (hi : y.id = some id) {cause : Json.Cause} (hd : y.handler.decode y.params = .error cause) :
    y.stage = .fresh ∨ y.stage = .finished (.error (badParams cause)) := by
  have hc : ∀ {params : Json}, ¬ y.Concludes params := fun hc =>
    by cases hd.symm.trans hc.decode
  have hsound := h.sound y hy
  cases hs : y.stage with
  | fresh => exact .inl rfl
  | finished o =>
    rcases h.answer hy hi hs with ⟨cause', hd', rfl⟩ | ⟨params, b, hd', -, -⟩
    · obtain rfl := Except.error.inj (hd.symm.trans hd')
      exact .inr rfl
    · cases hd.symm.trans hd'
  | _ =>
    rw [Run.Sound, hs] at hsound
    cases hsound with
    | _ h => exact absurd h hc

/-! ## One request, one run -/

section turn

variable {c d : Nat} {x : Connection}

/-- A request that no handler serves is answered at once. -/
theorem receive_unserved (hx : w.conns[c]? = some x) (hd : x.dispatcher = some d) (id : Id)
    {method : String} {params : Json}
    (hh : ((w.dispatchers[d]?).bind fun y => y.handlerFor method params) = none) :
    w.receive c (.request id method params) =
      ((w.emit (.received c (.request id method params))).emit
        (.unserved c id method params)).reply c (.err id (noSuchMethod method)) := by
  have hh' : (((w.emit (.received c (.request id method params))).dispatchers[d]?).bind
    fun y => y.handlerFor method params) = none := hh
  rw [receive, hx, Option.bind_some, hd]
  simp only [route, receiveRequest, hh']

/-- A request that a handler serves is known to the dispatcher. -/
theorem receive_entered (hx : w.conns[c]? = some x) (hd : x.dispatcher = some d) (id : Id)
    {method : String} {params : Json} {handler : Handler}
    (hh : ((w.dispatchers[d]?).bind fun y => y.handlerFor method params) = some handler) :
    w.receive c (.request id method params) =
      ((w.emit (.received c (.request id method params))).modifyDispatcher d
        fun z => z.enter id w.runs.length).spawn
        { conn := c, dispatcher := d, id := some id, method, handler, params } := by
  have hh' : (((w.emit (.received c (.request id method params))).dispatchers[d]?).bind
    fun y => y.handlerFor method params) = some handler := hh
  rw [receive, hx, Option.bind_some, hd]
  simp only [route, receiveRequest, hh']
  rfl

/-- A request that no handler serves is refused at once. -/
theorem receive_refused (hx : w.conns[c]? = some x) (ho : x.isOpen = true)
    (hd : x.dispatcher = some d) (id : Id) {method : String} {params : Json}
    (hh : ((w.dispatchers[d]?).bind fun y => y.handlerFor method params) = none) :
    (w.receive c (.request id method params)).journal =
      .accepted c (.reply (.err id (noSuchMethod method))) :: .unserved c id method params ::
        .received c (.request id method params) :: w.journal := by
  let v := (w.emit (.received c (.request id method params))).emit (.unserved c id method params)
  obtain ⟨q, -, he⟩ := roused_sendOn v c (.reply (.err id (noSuchMethod method)))
  rw [receive_unserved hx hd id hh, reply, he]
  have hv : v.conns[c]? = some x := hx
  simp only [enqueue, hv, Option.elim_some, Connection.offered_of_open c _ ho]
  rfl

/-- A handler whose params do not fit is not called. -/
theorem runHandler_undecodable {r : Nat} {y : Run} (hy : w.runs[r]? = some y)
    (hs : y.stage = .fresh) (hk : y.handler.kind.isRequest = true) {cause : Json.Cause}
    (hd : y.handler.decode y.params = .error cause) :
    w.runHandler r = w.finish r (.error (badParams cause)) := by
  rw [runHandler, hy]
  simp only [hs, begin, hk, if_true, runRequest]
  cases hkind : y.handler.kind with
  | request => simp only [hd]
  | command => simp only [hd]
  | _ => simp [hkind, HandlerKind.isRequest] at hk

/-- Whatever a handler comes to, its turn changes nothing of a connection but its link. -/
theorem runHandler_conn (hx : w.conns[c]? = some x) (r : Nat) :
    ∃ l, (w.runHandler r).conns[c]? = some { x with link := l } :=
  getElem?_of_loops (inside_runHandler w r).loops hx

end turn

/-! ## The whole -/

/-- **Every request is answered once.** The requests that came in over a connection were refused or
got a run, one after the other; the replies that it accepted are those of its refusals and of its
runs that ended before its own end began. So a request is answered once at most, and as long as the
connection lasts every request was answered or has a run that goes on. A run serves the one message
that it began with, and ends once, whatever its dispatcher is bound to by then.

Every reply is to a request that came in over the same connection, and says what was made of it:
that there is no such method, or what the handler of its run says, which is the value that the body
returned, `null` for a command, the failure of the body as it is, or that the params did not fit,
the body panicked or its result has no JSON form.

What no handler serves is refused at once, a handler whose params do not fit is not called, and
whatever a handler comes to leaves the connections as they are. -/
theorem answers_once (h : Reachable w) (c : Nat) :
    (w.journal.received c).filter Message.isRequest = w.journal.taken c ∧
    w.journal.replies c = w.journal.due c ∧
    (∀ id, w.answered c id + w.owed c id ≤ w.asked c id ∧
      (w.journal.cuts c = [] → w.answered c id + w.owed c id = w.asked c id)) ∧
    (∀ r, w.journal.spawns r = ((w.runs[r]?).map fun y => (y.conn, y.message)).toList ∧
      w.journal.endings r = ((w.runs[r]?).bind Run.ending?).toList) ∧
    (∀ y ∈ w.runs, ∀ id o, y.id = some id → y.stage = .finished o → y.handler.Says y.params o) ∧
    (∀ a ∈ w.journal.replies c, ∃ method params,
      .request a.id method params ∈ w.journal.received c ∧
      ((.unserved c a.id method params ∈ w.journal ∧ a.result = none ∧
          a.failure = some ⟨.methodNotFound, "No such method " ++ method, none⟩) ∨
        ∃ y ∈ w.runs, y.Serves c a.id method params ∧
          ((∃ v, y.stage = .finished (.ok v) ∧ y.handler.Says params (.ok v) ∧
              a.result = some v ∧ a.failure = none) ∨
            ∃ f, y.stage = .finished (.error f) ∧ y.handler.Says params (.error f) ∧
              a.result = none ∧ a.failure = some f))) ∧
    (∀ y ∈ w.runs, ∀ id cause, y.id = some id → y.handler.decode y.params = .error cause →
      y.stage = .fresh ∨ y.stage = .finished
        (.error ⟨.invalidParams, "Failed to deserialize parameters: " ++ cause.message, none⟩)) ∧
    (∀ (v : Network) (x : Connection) (d : Nat) (id : Id) (method : String) (params : Json),
      v.conns[c]? = some x → x.isOpen = true → x.dispatcher = some d →
      ((v.dispatchers[d]?).bind fun y => y.handlerFor method params) = none →
      (v.receive c (.request id method params)).journal =
        .accepted c (.reply ⟨id, none,
            some ⟨.methodNotFound, "No such method " ++ method, none⟩⟩) ::
          .unserved c id method params :: .received c (.request id method params) :: v.journal) ∧
    (∀ (v : Network) (r : Nat) (y : Run) (cause : Json.Cause), v.runs[r]? = some y →
      y.stage = .fresh → y.handler.kind.isRequest = true →
      y.handler.decode y.params = .error cause →
      v.runHandler r = v.finish r
        (.error ⟨.invalidParams, "Failed to deserialize parameters: " ++ cause.message, none⟩)) ∧
    (∀ (v : Network) (x : Connection) (r : Nat), v.conns[c]? = some x →
      ∃ l, (v.runHandler r).conns[c]? = some { x with link := l }) := by
  have hs := h.served
  have hm := h.path.manned
  refine ⟨hs.taken c, hs.replies c, fun id => ⟨hs.count_le c id, hs.count_eq c id⟩,
    fun r => ⟨hs.begun r, hs.ended r⟩, fun y hy id o hi ho => hm.says hy hi ho, ?_,
    fun y hy id cause hi hd => hm.undecodable hy hi hd, ?_, ?_, ?_⟩
  · -- Every reply has its origin: a refusal, or a run that has finished with this outcome.
    intro a ha
    obtain ⟨method, params, hreceived, outcome, hmade, hcarries⟩ := h.origin ha
    refine ⟨method, params, hreceived, ?_⟩
    rcases hmade with ⟨hu, rfl⟩ | ⟨y, hy, hserves, hstage⟩
    · exact .inl ⟨hu, by rw [hcarries]; rfl, by rw [hcarries]; rfl⟩
    · obtain ⟨hid, hp⟩ := hserves.id_params
      have hsays := hm.says hy hid hstage
      rw [hp] at hsays
      refine .inr ⟨y, hy, hserves, ?_⟩
      cases outcome with
      | ok v => exact .inl ⟨v, hstage, hsays, by rw [hcarries]; rfl, by rw [hcarries]; rfl⟩
      | error f => exact .inr ⟨f, hstage, hsays, by rw [hcarries]; rfl, by rw [hcarries]; rfl⟩
  · intro v x d id method params hx ho hd hh
    exact receive_refused hx ho hd id hh
  · intro v r y cause hy hf hk hd
    exact runHandler_undecodable hy hf hk hd
  · intro v x r hx
    exact runHandler_conn hx r

/-- A request for each way to an answer, two of them under one identifier: a value, a failure with
its data, a command, params that do not fit, a panic, a result without a JSON form, and a method
that nobody serves, which is refused before the handlers have their turns. -/
theorem answers_once_every_way :
    let w := run {} [.openScript {}, .openDispatcher,
      .handle 0 "echo" ⟨.request, .any, "echo", .nothing, .echo⟩,
      .handle 0 "fail" ⟨.request, .any, "fail", .nothing, .fail ⟨⟨7⟩, "no", some .null⟩⟩,
      .handle 0 "run" ⟨.command, .any, "run", .nothing, .echo⟩,
      .handle 0 "strict" ⟨.request, .bool, "strict", .nothing, .echo⟩,
      .handle 0 "boom" ⟨.request, .any, "boom", .nothing, .panic "boom"⟩,
      .handle 0 "bad" ⟨.request, .any, "bad", .nothing, .unserializable⟩,
      .connect 0 0,
      .feed 0 (Message.request (.number 1) "echo" (.bool true)).frame false,
      .feed 0 (Message.request (.number 1) "fail" .null).frame false,
      .feed 0 (Message.request (.number 2) "run" (.bool true)).frame false,
      .feed 0 (Message.request (.number 3) "strict" .null).frame false,
      .feed 0 (Message.request (.number 4) "boom" .null).frame false,
      .feed 0 (Message.request (.number 5) "bad" .null).frame false,
      .feed 0 (Message.request (.number 6) "none" .null).frame false, .settle 9]
    let replies : List Reply :=
      [⟨.number 6, none, some ⟨⟨-32601⟩, "No such method none", none⟩⟩,
        ⟨.number 1, some (.bool true), none⟩,
        ⟨.number 1, none, some ⟨⟨7⟩, "no", some .null⟩⟩,
        ⟨.number 2, some .null, none⟩,
        ⟨.number 3, none, some ⟨⟨-32602⟩,
          "Failed to deserialize parameters: invalid type: null, expected a boolean", none⟩⟩,
        ⟨.number 4, none, some ⟨⟨-32603⟩, "boom", none⟩⟩,
        ⟨.number 5, none, some ⟨⟨-32603⟩,
          "Failed to serialize result: key must be a string", none⟩⟩]
    w.asked 0 (.number 1) = 2 ∧ w.owed 0 (.number 1) = 0 ∧ w.answered 0 (.number 1) = 2 ∧
      w.journal.replies 0 = replies := by
  intro w replies
  -- The replies are due in this order; the refusal of the unknown method needs no turn of its own.
  obtain ⟨ha, ho, hc, hd⟩ : w.asked 0 (.number 1) = 2 ∧ w.owed 0 (.number 1) = 0 ∧
      w.journal.cuts 0 = [] ∧ w.journal.due 0 = replies := by decide +kernel
  have h : Reachable w := ⟨_, rfl⟩
  obtain ⟨-, hr, hcount, -⟩ := answers_once h 0
  have hsum := (hcount (.number 1)).2 hc
  rw [ha, ho, Nat.add_zero] at hsum
  exact ⟨ha, ho, hsum, hr.trans hd⟩

end Network

end Parley

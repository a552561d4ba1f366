import Parley.Proofs.Asking
import Parley.Proofs.Channel
import Parley.Proofs.Handled

/-!
# Calls between two connections

A call over one of two connections that are joined comes to what the other one made of its request.
The request goes through a channel to the other end, is refused there or served by one run, and the
reply comes back through the other channel. Both ends number their requests alike, calls end in any
order, and connections end at any time; what holds it all together is that a reply has the
identifier of its request, and that each connection reads what the other one has accepted.

- `Network.Produced`: what was made of a request.
- `Network.Reachable.produced`: every reply says what was made of a request that came in.
- `Network.Produced.unique`: nothing else was made of it.
- `Network.agrees_end_to_end`: the whole.
-/

namespace Parley

/-! ## What is made of a request -/

/-- What a call comes to when this was made of its request: a command gives no value, and data of a
failure that are `null` are no data. -/
def Call.conveys (x : Call) : Except Failure Json → Except CallError Json
  | .ok v => .ok (if x.shape = none then .null else v)
  | .error f => .error (.failure f.plain)

/-- Whether every value has a shape. -/
def Json.Shape.isAny : Json.Shape → Bool
  | .any => true
  | _ => false

theorem Json.Shape.eq_any {s : Json.Shape} (h : s.isAny = true) : s = .any := by
  cases s with
  | any => rfl
  | _ => cases h

/-- What a reply in its plain form means for a call that takes any value. -/
theorem Call.outcomeOf_plain {x : Call} (hs : ∀ s ∈ x.shape, s = .any) (a : Reply) :
    x.outcomeOf a.plain = x.conveys a.outcome := by
  rw [Reply.plain]
  cases a.outcome with
  | error f => rfl
  | ok v =>
    cases hx : x.shape with
    | none => simp [Call.outcomeOf, Call.conveys, hx]
    | some s =>
      obtain rfl := hs s hx
      simp only [Call.outcomeOf, Reply.outcome_ok, Call.conveys, hx]
      rfl

namespace Network

variable {w : Network} {c d : Nat} {id : Id} {method : String} {params : Json}
  {outcome : Except Failure Json}

/-- What was made of a request that came in over a connection. -/
inductive Produced (w : Network) (d : Nat) (id : Id) (method : String) (params : Json) :
    Except Failure Json → Prop where
  /-- No handler serves its method. -/
  | refused (h : .unserved d id method params ∈ w.journal) :
      Produced w d id method params (.error (noSuchMethod method))
  /-- Its params do not fit its handler, which was not called. -/
  | undecodable {y : Run} {cause : Json.Cause} (hy : y ∈ w.runs)
      (hm : y.Serves d id method params) (hd : y.handler.decode params = .error cause)
      (hs : y.stage = .finished (.error (badParams cause))) :
      Produced w d id method params (.error (badParams cause))
  /-- Its handler was called, and this is the answer for what its body came to. -/
  | handled {y : Run} {seen : Json} {b : BodyOutcome} (hy : y ∈ w.runs)
      (hm : y.Serves d id method params) (hd : y.handler.decode params = .ok seen)
      (hb : y.handler.Yields seen b) (hs : y.stage = .finished (y.handler.respond b)) :
      Produced w d id method params (y.handler.respond b)

/-- What was made of a request is a refusal, or the outcome of a run that served it. -/
theorem Produced.cases (h : w.Produced d id method params outcome) :
    (.unserved d id method params ∈ w.journal ∧ outcome = .error (noSuchMethod method)) ∨
      ∃ y ∈ w.runs, y.Serves d id method params ∧ y.stage = .finished outcome := by
  cases h with
  | refused h => exact .inl ⟨h, rfl⟩
  | undecodable hy hm _ hs => exact .inr ⟨_, hy, hm, hs⟩
  | handled hy hm _ _ hs => exact .inr ⟨_, hy, hm, hs⟩

/-- **Every reply says what was made of a request** that came in. -/
theorem Reachable.produced (h : Reachable w) {a : Reply}
    (ha : .reply a ∈ w.journal.accepted d) :
    ∃ method params, .request a.id method params ∈ w.journal.received d ∧
      w.Produced d a.id method params a.outcome := by
  have hmem : a ∈ w.journal.replies d := List.mem_filterMap.mpr ⟨.reply a, ha, rfl⟩
  obtain ⟨method, params, hreceived, outcome, hmade, hcarries⟩ := h.origin hmem
  have hout : a.outcome = outcome := by rw [hcarries, Reply.outcome_carrying]
  refine ⟨method, params, hreceived, ?_⟩
  rw [hout]
  rcases hmade with ⟨hu, rfl⟩ | ⟨y, hy, hm, hs⟩
  · exact .refused hu
  · obtain ⟨hid, hp⟩ := hm.id_params
    rcases h.path.manned.answer hy hid hs with ⟨cause, hd, rfl⟩ | ⟨seen, b, hd, hb, rfl⟩
    · exact .undecodable hy hm (hp ▸ hd) hs
    · exact .handled hy hm (hp ▸ hd) hb hs

/-! ## Nothing else is made of it -/

/-- A request that came in alone under its identifier was refused or given a run only once. -/
theorem Reachable.taken_unique (h : Reachable w) {m : Message}
    (hm : (w.journal.received d).filter (fun m => m.requestId? = some id) = [m]) {e e' : Event}
    (he : e ∈ w.journal) (he' : e' ∈ w.journal)
    (ht : (e.taken? d).bind Message.requestId? = some id)
    (ht' : (e'.taken? d).bind Message.requestId? = some id) : e = e' := by
  -- The events that take requests under this identifier are as many as these requests.
  have hlen : (w.journal.filter
      fun e => (e.taken? d).bind Message.requestId? = some id).length = 1 := by
    have htaken : (w.journal.taken d).countP (fun m => m.requestId? = some id) = 1 := by
      have hall : ((w.journal.received d).filter Message.isRequest).countP
          (fun m => m.requestId? = some id) =
            ((w.journal.received d).filter fun m => m.requestId? = some id).length := by
        rw [List.countP_filter, List.countP_eq_length_filter]
        congr 2
        funext m
        cases m <;> simp [Message.requestId?, Message.isRequest]
      rw [← h.served.taken d, hall, hm, List.length_singleton]
    rw [Journal.taken_eq, List.countP_reverse, List.countP_filterMap] at htaken
    rw [← List.countP_eq_length_filter, ← htaken]
    refine List.countP_congr fun e _ => ?_
    cases e.taken? d <;> simp
  obtain ⟨a, ha⟩ := List.length_eq_one_iff.mp hlen
  have only : ∀ e ∈ w.journal, (e.taken? d).bind Message.requestId? = some id → e = a := by
    intro e he ht
    refine List.mem_singleton.mp ?_
    rw [← ha]
    exact List.mem_filter.mpr ⟨he, decide_eq_true ht⟩
  rw [only e he ht, only e' he' ht']

/-- **Nothing else was made of a request** that came in alone under its identifier. -/
theorem Produced.unique (h : w.Produced d id method params outcome) (hw : Reachable w)
    (hm : (w.journal.received d).filter (fun m => m.requestId? = some id) =
      [.request id method params]) {other : Except Failure Json}
    (h' : w.Produced d id method params other) : other = outcome := by
  -- A request that was received once was taken up once, by one run or by a refusal.
  have began : ∀ {y : Run}, y ∈ w.runs → y.Serves d id method params →
      ∃ r, w.runs[r]? = some y ∧ .spawned r d (.request id method params) ∈ w.journal := by
    intro y hy hs
    obtain ⟨r, hr⟩ := List.getElem?_of_mem hy
    exact ⟨r, hr, hw.spawned hr hs⟩
  have hspawned : ∀ r, ((Event.spawned r d (.request id method params)).taken? d).bind
      Message.requestId? = some id := fun r => by rw [taken?_spawned]; rfl
  have hunserved : ((Event.unserved d id method params).taken? d).bind Message.requestId? =
      some id := by rw [Event.taken?, if_pos rfl]; rfl
  rcases h.cases with ⟨hu, rfl⟩ | ⟨y, hy, hs, ho⟩
  · -- It was refused. Then no run can have served it as well.
    rcases h'.cases with ⟨-, rfl⟩ | ⟨z, hz, hs', -⟩
    · rfl
    · -- It was served. Then it was not refused, and the other run is the same one.
      obtain ⟨r, -, hr⟩ := began hz hs'
      cases hw.taken_unique hm hu hr hunserved (hspawned r)
  · obtain ⟨r, hry, hr⟩ := began hy hs
    rcases h'.cases with ⟨hu, -⟩ | ⟨z, hz, hs', ho'⟩
    · cases hw.taken_unique hm hu hr hunserved (hspawned r)
    · obtain ⟨r', hrz, hr'⟩ := began hz hs'
      obtain ⟨rfl, -, -⟩ := Event.spawned.inj
        (hw.taken_unique hm hr hr' (hspawned r) (hspawned r'))
      obtain rfl := Option.some.inj (hry.symm.trans hrz)
      exact Stage.finished.inj (ho'.symm.trans ho)

/-! ## What a call comes to -/

variable {k : Nat} {x : Call} {o : Except CallError Json}

/-- Who waits for a call is told a value or the failure of its peer only if a reply came in under
its identifier. -/
theorem Reachable.reply_of_told (h : Reachable w) (hx : w.calls[k]? = some x)
    (ho : o ∈ w.journal.told k) (hr : (∃ v, o = .ok v) ∨ ∃ f, o = .error (.failure f)) :
    ∃ a : Reply, .reply a ∈ w.journal.received x.conn ∧ a.id = x.id ∧ o = x.outcomeOf a := by
  have hf := (h.fits hx).outcome_of_mem ho
  cases hfate : w.fateOf k x with
  | answered a =>
    rw [hfate] at hf
    obtain ⟨hm, hid⟩ := Journal.mem_received_of_fate hfate
    exact ⟨a, hm, hid, (Option.some.inj hf).symm⟩
  | unborn | pending | dropped =>
    rw [hfate] at hf
    cases hf
  | closed | stranded | expired =>
    rw [hfate] at hf
    obtain rfl := Option.some.inj hf
    rcases hr with ⟨v, hv⟩ | ⟨f, hv⟩ <;> cases hv

/-- A request that came in alone under its identifier, because it was sent alone. -/
theorem Joined.filter_received (hj : w.Joined c d)
    (hc : ∀ m ∈ w.journal.accepted c, ∀ v ∈ m.payloads, v.all Json.isExact = true)
    (hn : (w.journal.accepted c).countP Message.isRequest ≤ UInt64.size) {sent m : Message}
    (hsent : sent ∈ w.journal.accepted c) (hid : sent.requestId? = some id)
    (hm : m ∈ w.journal.received d) (hmid : m.requestId? = some id) :
    m = sent ∧ (w.journal.received d).filter (fun m => m.requestId? = some id) = [sent] := by
  have hplain : ∀ m : Message, m.plain.requestId? = m.requestId? := fun m => by cases m <;> rfl
  have hsame : sent.plain = sent := by
    cases sent with
    | request => rfl
    | _ => cases hid
  -- What came in is a part of what was sent, and there is only one such request.
  have hpart := (hj.received_isPrefix hc).filter fun m => decide (m.requestId? = some id)
  have hall : ((w.journal.accepted c).map Message.plain).filter
      (fun m => m.requestId? = some id) = [sent] := by
    rw [List.filter_map]
    have hf : ((fun m : Message => decide (m.requestId? = some id)) ∘ Message.plain) =
        fun m => decide (m.requestId? = some id) := by
      funext m
      simp [hplain]
    rw [hf, hj.reachable.filter_accepted hn hsent hid, List.map_singleton, hsame]
  have hmem : m ∈ (w.journal.received d).filter fun m => m.requestId? = some id :=
    List.mem_filter.mpr ⟨hm, decide_eq_true hmid⟩
  obtain ⟨more, hmore⟩ := hpart
  rw [hall] at hmore
  have hone : (w.journal.received d).filter (fun m => m.requestId? = some id) = [sent] := by
    rcases List.append_eq_singleton_iff.mp hmore with ⟨he, -⟩ | ⟨he, -⟩
    · rw [he] at hmem
      exact absurd hmem List.not_mem_nil
    · exact he
  rw [hone] at hmem
  exact ⟨List.mem_singleton.mp hmem, hone⟩

/-- **Agreement from end to end.** Two connections are joined by a pair of pipes of any capacity,
with any handlers at both ends and any calls under way in both directions. A call over one of them
that takes any value, or a command, and that is told a value or a failure of its peer is told what
the other connection made of a request that came in there under the identifier of the call: that no
handler serves its method, that its params do not fit, or what its handler answered.

The identifiers of a connection are the integers of 64 bits. As long as they are not given twice,
this is the request of the call itself, it is the only one that came in under its identifier, and
nothing else was made of it. -/
theorem agrees_end_to_end (hj : w.Joined c d)
    (hc : ∀ m ∈ w.journal.accepted c, ∀ v ∈ m.payloads, v.all Json.isExact = true)
    (hd : ∀ m ∈ w.journal.accepted d, ∀ v ∈ m.payloads, v.all Json.isExact = true)
    (hx : w.calls[k]? = some x) (hxc : x.conn = c) (hs : ∀ s ∈ x.shape, s = .any)
    (ho : o ∈ w.journal.told k) (hr : (∃ v, o = .ok v) ∨ ∃ f, o = .error (.failure f)) :
    ∃ method params outcome, .request x.id method params ∈ w.journal.received d ∧
      w.Produced d x.id method params outcome ∧ o = x.conveys outcome ∧
      ((w.journal.accepted c).countP Message.isRequest ≤ UInt64.size →
        method = x.method ∧ w.journal.requestOf k = some (c, .request x.id method params) ∧
        (w.journal.received d).filter (fun m => m.requestId? = some x.id) =
          [.request x.id method params] ∧
        ∀ other, w.Produced d x.id method params other → other = outcome) := by
  have hw := hj.reachable
  subst hxc
  obtain ⟨a, ha, hid, rfl⟩ := hw.reply_of_told hx ho hr
  -- The reply went through the channel from the other end, and says what was made of its request.
  obtain ⟨m, hm, hplain⟩ := List.mem_map.mp ((hj.symm.received_isPrefix hd).subset ha)
  obtain ⟨b, rfl, rfl⟩ : ∃ b : Reply, m = .reply b ∧ b.plain = a := by
    cases m with
    | reply b => exact ⟨b, rfl, Message.reply.inj hplain⟩
    | _ => cases hplain
  have hbid : b.plain.id = b.id := by
    rw [Reply.plain]
    cases b.outcome <;> rfl
  obtain ⟨method, params, hreq, hmade⟩ := hw.produced hm
  rw [← hbid, hid] at hreq hmade
  refine ⟨method, params, b.outcome, hreq, hmade, Call.outcomeOf_plain hs b, ?_⟩
  intro hn
  obtain ⟨params', hown⟩ := hw.requestOf_call hx
  -- Of the requests that were sent only that of the call has its identifier.
  obtain ⟨heq, hone⟩ :=
    hj.filter_received hc hn (Journal.mem_accepted_of_requestOf hown) rfl hreq rfl
  obtain ⟨-, rfl, rfl⟩ := Message.request.inj heq
  exact ⟨rfl, hown, hone, fun other ho => hmade.unique hw hone ho⟩

/-- Two calls through pipes that hold sixteen bytes. The second one comes to its end first. -/
theorem agrees_end_to_end_pipelined :
    let w := run {} [.openPipes 16 {} {}, .openDispatcher, .openDispatcher,
      .handle 1 "slow" ⟨.request, .any, "slow", .nothing, .awaitGate "g"⟩,
      .handle 1 "fast" ⟨.command, .any, "fast", .nothing, .echo⟩, .connect 0 0, .connect 1 1,
      .call (.conn 0) "slow" (.ok (.bool true)) (some .any),
      .call (.conn 0) "fast" (.ok (.bool false)) none, .settle 99, .openGate "g", .settle 99]
    ∃ x, w.calls[0]? = some x ∧ ∃ o ∈ w.journal.told 0, o.toOption = some (.bool true) ∧
      ∃ params outcome, w.Produced 1 x.id "slow" params outcome ∧ o = x.conveys outcome ∧
        (w.journal.received 1).filter (fun m => m.requestId? = some x.id) =
          [.request x.id "slow" params] := by
  intro w
  have hj : w.Joined 0 1 := ⟨[], _, 16, {}, {}, rfl, .inl ⟨rfl, rfl⟩⟩
  -- Everything that is asked of the network is evaluated here at once.
  obtain ⟨hc, hd, hn, hcall, htold⟩ :
      (∀ m ∈ w.journal.accepted 0, ∀ v ∈ m.payloads, v.all Json.isExact = true) ∧
      (∀ m ∈ w.journal.accepted 1, ∀ v ∈ m.payloads, v.all Json.isExact = true) ∧
      (w.journal.accepted 0).countP Message.isRequest ≤ UInt64.size ∧
      (w.calls[0]?).map (fun x => (x.conn, x.method, x.shape.all Json.Shape.isAny)) =
        some (0, "slow", true) ∧
      (w.journal.told 0).map Except.toOption = [some (.bool true)] := by decide +kernel
  obtain ⟨x, hx, hcall⟩ := Option.map_eq_some_iff.mp hcall
  obtain ⟨hxc, hcall⟩ := Prod.mk.inj hcall
  obtain ⟨hmethod, hshape⟩ := Prod.mk.inj hcall
  -- The answer is taken as it is, so what was told is what was sent.
  have hs : ∀ s ∈ x.shape, s = .any := by
    intro s hs
    rw [Option.mem_def.mp hs] at hshape
    exact Json.Shape.eq_any hshape
  obtain ⟨o, ho, hval⟩ := List.mem_map.mp (htold ▸ List.mem_singleton.mpr rfl :
    some (.bool true) ∈ (w.journal.told 0).map Except.toOption)
  have hr : ∃ v, o = .ok v := by
    cases o with
    | ok v => exact ⟨v, rfl⟩
    | error e => cases hval
  obtain ⟨method, params, outcome, -, hmade, hout, hown⟩ :=
    agrees_end_to_end hj hc hd hx hxc hs ho (.inl hr)
  obtain ⟨rfl, -, hone, -⟩ := hown hn
  rw [hmethod] at hmade hone
  exact ⟨x, hx, o, ho, hval, params, outcome, hmade, hout, hone⟩

end Network

end Parley

import Parley.Proofs.Audience
import Parley.Proofs.Exclusive
import Parley.Proofs.Inflight
import Parley.Proofs.Remembered

/-!
# What a dispatcher remembers of former peers

What a dispatcher remembers about open documents it is told by the peer of the connection that it is
bound to. Nothing is forgotten when that connection ends. So a document that a former peer left open
is taken to be open still, in the language that it had then, until the present peer says otherwise.

- `Network.Move.tidings`: whom a dispatcher hears.
- `Network.Engaged`: a connection that was connected, and what was remembered until then.
- `Network.Engaged.remembers`: it adds what it tells, and nobody else does.
- `Network.recalls_iff`: what is remembered, and what messages start;
  `Network.routes_by_former_peer` is what a former peer leaves behind.
-/

namespace Parley

/-! ## Events that tell nothing -/

/-- Whether an event is a notification that comes in, which may tell about documents. -/
def Event.tells : Event → Bool
  | .received _ (.notification _ _) => true
  | _ => false

namespace Connection

variable {x y : Connection} {c : Nat} {es : List Event} {e : Event}

/-- A message that is accepted tells nothing about languages. -/
theorem tells_offered {m : Message} (h : e ∈ x.offered c m) : e.tells = false := by
  obtain rfl := mem_offered h
  rfl

/-- Nor does a request that is forgotten. -/
theorem tells_forgot {id : Id} (h : e ∈ x.forgot c id) : e.tells = false := by
  obtain rfl := mem_forgot h
  rfl

/-- Nor does the turn of a loop. -/
theorem Turn.tells (h : x.Turn c es y) (he : e ∈ es) : e.tells = false := by
  obtain ⟨bs, rfl⟩ | rfl := h.mem he
  · rfl
  · rfl

end Connection

/-- What comes in comes in over a connection that is read from. -/
theorem ConnMove.received {x y : Connection} {c : Nat} {es : List Event} (h : ConnMove c x es y) :
    Journal.received c es = [] ∨ x.IsReading := by
  have offered : ∀ (z : Connection) (m : Message), Journal.received c (z.offered c m) = [] := by
    intro z m
    rcases z.offer_cases c m with ⟨l, -, -, he, -⟩ | ⟨-, he, -⟩
    · rw [he]
      rfl
    · rw [he]
      rfl
  -- A message can be received only by a connection that reads; the other moves receive nothing.
  cases h with
  | elsewhere e he => exact .inl (Journal.received_elsewhere he [])
  | turn h => cases h <;> exact .inl rfl
  | notify method params => exact .inl (offered x _)
  | forget id =>
    rcases x.forget_cases c id with ⟨l, k, z, -, -, -, he, -⟩ | ⟨-, he, -⟩
    · rw [he]
      exact .inl (offered z _)
    · rw [he]
      exact .inl rfl
  | reply r id outcome =>
    refine .inl ?_
    rw [Journal.received_append, offered]
    rfl
  | answer h | receive h | spawn h | serve h | refuse h => exact .inr h
  | _ => exact .inl rfl

/-- Events that tell nothing add nothing to what is remembered. -/
theorem Languages.hear_received (ls : Languages) (c : Nat) {es : List Event} (j : Journal)
    (h : ∀ e ∈ es, e.tells = false) :
    ls.hear (Journal.received c (es ++ j)) = ls.hear (j.received c) := by
  have quiet : ∀ ms : Languages, ms.hear (Journal.received c es) = ms := by
    induction es with
    | nil => exact fun _ => rfl
    | cons e es ih =>
      intro ms
      have ih := ih (fun e he => h e (List.mem_cons_of_mem _ he)) ms
      cases e with
      | received d m =>
        rw [Journal.received]
        split
        · rw [hear_append, ih]
          cases m with
          | notification => cases h _ List.mem_cons_self
          | _ => rfl
        · exact ih
      | _ => exact ih
  rw [Journal.received_append, hear_append, quiet]

namespace Network

variable {w w' : Network} {c d : Nat} {x : Connection}

/-! ## Whom a dispatcher hears -/

/-- Nothing that is new tells anything, and no dispatcher changes what it remembers. -/
structure Recalls (w w' : Network) : Prop where
  journal : ∃ es, w'.journal = es ++ w.journal ∧ ∀ e ∈ es, e.tells = false
  dispatcher : ∀ (d : Nat) (x : Dispatcher), w.dispatchers[d]? = some x →
    ∃ y, w'.dispatchers[d]? = some y ∧ y.languages = x.languages

namespace Recalls

/-- Dispatchers stay as they are. -/
theorem same (es : List Event) (hd : w'.dispatchers = w.dispatchers)
    (hj : w'.journal = es ++ w.journal) (he : ∀ e ∈ es, e.tells = false) : Recalls w w' :=
  ⟨⟨es, hj, he⟩, fun _ x hx => ⟨x, by rwa [hd], rfl⟩⟩

/-- One dispatcher changes. -/
theorem modify {e : Nat} {f : Dispatcher → Dispatcher} (es : List Event)
    (hd : w'.dispatchers = w.dispatchers.modify e f)
    (hf : ∀ x, w.dispatchers[e]? = some x → (f x).languages = x.languages)
    (hj : w'.journal = es ++ w.journal) (he : ∀ e ∈ es, e.tells = false) : Recalls w w' := by
  refine ⟨⟨es, hj, he⟩, fun d x hx => ?_⟩
  rw [hd, List.getElem?_modify, hx]
  by_cases he : e = d
  · subst he
    exact ⟨f x, by simp, hf x hx⟩
  · exact ⟨x, by simp [he], rfl⟩

/-- A dispatcher that changes without its languages recalls what it did. -/
theorem set {e : Nat} {x y : Dispatcher} (hx : w.dispatchers[e]? = some x)
    (hd : w'.dispatchers = w.dispatchers.set e y) (hl : y.languages = x.languages)
    (hj : w'.journal = w.journal) : Recalls w w' := by
  refine modify (f := fun _ => y) [] (hd.trans (modify_eq_set hx fun _ => y).symm) (fun z hz => ?_)
    hj (by simp)
  obtain rfl := Option.some.inj (hx.symm.trans hz)
  exact hl

theorem trans {u v w : Network} (h : Recalls u v) (h' : Recalls v w) : Recalls u w := by
  obtain ⟨es, hj, he⟩ := h.journal
  obtain ⟨fs, hj', hf⟩ := h'.journal
  refine ⟨⟨fs ++ es, by rw [hj', hj, List.append_assoc], fun e hm => ?_⟩, fun d x hx => ?_⟩
  · rcases List.mem_append.mp hm with hm | hm
    · exact hf e hm
    · exact he e hm
  · obtain ⟨y, hy, hl⟩ := h.dispatcher d x hx
    obtain ⟨z, hz, hl'⟩ := h'.dispatcher d y hy
    exact ⟨z, hz, hl'.trans hl⟩

/-- An event that tells nothing is nothing to the memory. -/
theorem emit (w : Network) {e : Event} (h : e.tells = false) : Recalls w (w.emit e) :=
  same [e] rfl rfl fun e' he => by rwa [List.mem_singleton.mp he]

/-- A withdrawal is nothing to the memory. -/
theorem withdraw (w : Network) (c : Nat) (id : Id) : Recalls w (w.withdraw c id) := by
  refine same _ rfl rfl fun e he => ?_
  cases hx : w.conns[c]? with
  | none => simp [hx] at he
  | some x =>
    rw [hx, Option.elim_some] at he
    exact Connection.tells_forgot he

/-- A message sent is nothing to the memory. -/
theorem enqueue (w : Network) (c : Nat) (m : Message) : Recalls w (w.enqueue c m) := by
  refine same _ rfl rfl fun e he => ?_
  cases hx : w.conns[c]? with
  | none => simp [hx] at he
  | some x =>
    rw [hx, Option.elim_some] at he
    exact Connection.tells_offered he

/-- A call that begins is nothing to the memory. -/
theorem begun (w : Network) (x : Call) (l : Link) (params : Json) :
    Recalls w (w.begun x l params) :=
  same [.accepted x.conn (.request x.id x.method params), .started w.calls.length] rfl rfl
    (by simp [Event.tells])

/-- A call is over because it lasted too long. -/
theorem expired (w : Network) (k : Nat) (x : Call) : Recalls w (w.expired k x) :=
  (withdraw w x.conn x.id).trans (same [.ended k _] rfl rfl (by simp [Event.tells]))

/-- A call that is given up is nothing to the memory. -/
theorem givenUp (w : Network) (k : Nat) (x : Call) : Recalls w (w.givenUp k x) :=
  (withdraw w x.conn x.id).trans (same [.dropped k] rfl rfl (by simp [Event.tells]))

/-- A run that ends is nothing to the memory. -/
theorem concluded (w : Network) (r : Nat) (y : Run) (outcome : Except Failure Json) :
    Recalls w (w.concluded r y outcome) := by
  rw [Network.concluded]
  cases y.id with
  | none => exact same [.finished r y.conn none outcome] rfl rfl (by simp [Event.tells])
  | some id =>
    refine trans ?_ (enqueue _ _ _)
    exact modify [.finished r y.conn (some id) outcome] rfl (fun _ _ => rfl) rfl
      (by simp [Event.tells])

end Recalls

/-- A message that is no request comes in, or nothing is told and what is remembered stays. -/
theorem Move.tidings (h : Move w w') : Recalls w w' ∨
    ∃ c d x m, w.conns[c]? = some x ∧ x.IsReading ∧ x.dispatcher = some d ∧
      w'.journal = .received c m :: w.journal ∧
      w'.dispatchers = w.dispatchers.modify d fun x => x.heed m := by
  -- One move hears something; the others leave every memory as it is.
  cases h with
  | @receive c d x m hx hr hd => exact .inr ⟨c, d, x, m, hx, hr, hd, rfl, rfl⟩
  | remark e he =>
    refine .inl (.emit w ?_)
    cases e <;> first | rfl | cases he
  | openDispatcher =>
    exact .inl ⟨⟨[], rfl, by simp⟩, fun d x hx => ⟨x, getElem?_append_of_some hx _, rfl⟩⟩
  | arrange hx hk => exact .inl (.set hx rfl hk.languages rfl)
  | register descriptor r hx => exact .inl (.set hx rfl rfl rfl)
  | connect d => exact .inl (.modify [] rfl (fun _ _ => rfl) rfl (by simp))
  | turn hx ht => exact .inl (.same _ rfl rfl fun e he => ht.tells he)
  | notify c method params => exact .inl (.enqueue w c _)
  | call => exact .inl (.begun w _ _ _)
  | @forward l l' x params =>
    exact .inl ((Recalls.begun w x l' params).trans (.same [] rfl rfl (by simp)))
  | callLate => exact .inl ((Recalls.begun w _ _ _).trans (.expired _ _ _))
  | expire => exact .inl (.expired w _ _)
  | finish => exact .inl (.concluded w _ _ _)
  -- A request is not heeded: only notifications open and close documents.
  | @serve c x y d id hx hr hd hd' hh hc hi =>
    rw [Run.message_of_some hi]
    refine .inl (.modify [.spawned w.runs.length c (.request id y.method y.params),
      .received c (.request id y.method y.params)] rfl (fun _ _ => rfl) rfl (by simp [Event.tells]))
  | @refuse c d x id method params =>
    refine .inl (Recalls.trans ?_ (.enqueue _ c _))
    exact (Recalls.emit w rfl).trans (.emit _ rfl)
  | answer | strand | spawn | learn | lose | cut =>
    exact .inl (.same [_] rfl rfl (by simp [Event.tells]))
  | _ => exact .inl (.same [] rfl rfl (by simp))

/-! ## What came in before -/

/-- Over a connection that was never connected nothing came in. -/
theorem Path.received_of_unused (h : Path {} w) (hx : w.conns[c]? = some x)
    (hl : x.link = none) : w.journal.received c = [] := by
  have he : w.Each fun c x j => Connection.Sound c x j ∧ (x.link = none → j.received c = []) := by
    refine h.each (fun hx hj => ⟨.unused (hx.unused hj), fun _ => Journal.received_eq_nil hj⟩)
      fun {c x y es j} ⟨hS, hn⟩ hm => ⟨hS.step hm, fun hl => ?_⟩
    have hx : x.link = none := by
      cases hx : x.link with
      | none => rfl
      | some l =>
        obtain ⟨k, hk⟩ := hm.link hx
        cases hl.symm.trans hk
    rw [Journal.received_append, hn hx]
    exact hm.received.resolve_right fun hr => by
      obtain ⟨l, hv⟩ := hS.live_of_isReading hr
      cases hx.symm.trans hv.link
  exact (he.conn c x hx).2 hl

/-! ## What is remembered while a connection lasts -/

/-- A connection was connected to a dispatcher, and is open still; `left` is what the dispatcher
remembered before. -/
inductive Engaged (c d : Nat) (left : Languages) (w : Network) : Prop where
  | intro {u : Network} {y : Dispatcher} {x : Connection} (hu : Reachable u)
      (hy : u.dispatchers[d]? = some y) (hl : y.languages = left)
      (hc : (u.act (.connect c d)).1 = .done) (hw : Path (u.act (.connect c d)).2 w)
      (hx : w.conns[c]? = some x) (ho : x.isOpen = true)

/-- What a dispatcher remembers while it serves a connection. -/
def Remembers (c d : Nat) (left : Languages) (w : Network) : Prop :=
  ∃ z, w.dispatchers[d]? = some z ∧ z.languages = left.hear (w.journal.received c)

/-- Who remembers something goes on remembering it as long as nothing is heard. -/
theorem Remembers.recalls {left : Languages} (h : Remembers c d left w) (hr : Recalls w w') :
    Remembers c d left w' := by
  obtain ⟨z, hz, hl⟩ := h
  obtain ⟨y, hy, hly⟩ := hr.dispatcher d z hz
  obtain ⟨es, hj, he⟩ := hr.journal
  exact ⟨y, hy, by rw [hly, hl, hj, Languages.hear_received left c w.journal he]⟩

/-- While a connection is open that was connected to a dispatcher, the dispatcher hears its peer and
nobody else. -/
theorem Remembers.move {left : Languages} (h : Remembers c d left w) (hb : w.Bound) (ho : w.Ordered)
    (hx : w.conns[c]? = some x) (hopen : x.isOpen = true) (hd : x.dispatcher = some d)
    (hm : Move w w') : Remembers c d left w' := by
  rcases hm.tidings with hr | ⟨b, e, y, m, hy, hread, he, hj, hds⟩
  · exact h.recalls hr
  · obtain ⟨z, hz, hl⟩ := h
    obtain ⟨l, hv⟩ := (ho.sound.conn b y hy).live_of_isReading hread
    have hyo : y.isOpen = true := by rw [Connection.isOpen_of_link hv.link, hv.isOpen]
    by_cases hb' : b = c
    · subst hb'
      obtain rfl := Option.some.inj (hx.symm.trans hy)
      obtain rfl := Option.some.inj (hd.symm.trans he)
      refine ⟨z.heed m, by rw [hds, List.getElem?_modify, hz]; simp, ?_⟩
      rw [z.languages_heed, hl, hj, Journal.received, if_pos rfl, Languages.hear_append]
      rfl
    · -- The peer of another connection tells another dispatcher.
      have hne : e ≠ d := by
        rintro rfl
        exact hb' (hb.eq_of_open hy hx hyo hopen he hd)
      refine ⟨z, by rw [hds, List.getElem?_modify, hz]; simp [hne], ?_⟩
      rw [hl, hj, Journal.received, if_neg hb']

/-- A connection that is connected begins with what was remembered. -/
theorem remembers_joined (h : Reachable w) {y : Dispatcher} (hx : w.conns[c]? = some x)
    (hp : x.phase = .disconnected) (hy : w.dispatchers[d]? = some y) :
    Remembers c d y.languages (w.joined c d) ∧ (w.joined c d).ServedBy c d := by
  have hn : w.journal.received c = [] :=
    h.path.received_of_unused hx ((h.sound.conn c x hx).unused_of_disconnected hp).link
  obtain ⟨q, -, he⟩ := roused_joined w c d
  rw [he]
  refine ⟨⟨{ y with bound := some c }, by simp [modifyDispatcher, modifyConn, hy], ?_⟩,
    x.start d, ?_, rfl, by rintro ⟨⟩⟩
  · show y.languages = y.languages.hear (w.journal.received c)
    rw [hn]
    rfl
  · show (w.modifyConn c fun x => x.start d).conns[c]? = _
    rw [getElem?_modifyConn_self, hx, Option.map_some]

/-- The dispatcher of a connection hears its peer alone, as long as the connection is open. -/
theorem Engaged.remembers {left : Languages} (h : Engaged c d left w) :
    Remembers c d left w ∧ ∃ x, w.conns[c]? = some x ∧ x.dispatcher = some d := by
  obtain @⟨u, y, x, hu, hy, rfl, hc, hw, hx, ho⟩ := h
  -- Only a connection that did connect is engaged.
  rcases connect_iff hu c d with ⟨hp, -, -, ha⟩ | ⟨-, ha⟩
  · obtain ⟨x₀, hx₀, hp⟩ := Option.map_eq_some_iff.mp hp
    obtain ⟨hjoined, hs⟩ := remembers_joined hu hx₀ hp hy
    have hact := path_act u (.connect c d)
    rw [ha] at hact hw
    have hv : Path {} (u.joined c d) := hu.path.trans hact
    -- The dispatcher serves the connection for good, and as long as that is open, all that it hears
    -- comes from there.
    have served : ∀ {v}, Path (u.joined c d) v → v.ServedBy c d := fun h => hs.path hv.ordered h
    have remembers : ∀ {v}, Path (u.joined c d) v → ∀ x, v.conns[c]? = some x → x.isOpen = true →
        Remembers c d y.languages v := by
      -- Induction on the path since the connection: what is open now was open at every step before.
      intro v h
      induction h with
      | refl => exact fun _ _ _ => hjoined
      | @move v v' h hm ih =>
        intro x' hx' ho'
        have hpath := hv.trans h
        obtain ⟨z, hz, hd, hl⟩ := served h
        obtain ⟨l, hl⟩ := Option.ne_none_iff_exists'.mp hl
        obtain ⟨x, hx, hst⟩ := hm.stays hpath.ordered.sound ⟨z, l, hz, hl⟩ hx' ho'
        obtain rfl := Option.some.inj (hx.symm.trans hz)
        exact (ih x hx (hst.isOpen ho')).move hpath.bound hpath.ordered hx (hst.isOpen ho') hd hm
      | pop h hq ih => exact ih
      | @drop v k z h hk hz hown ih =>
        intro x' hx' ho'
        obtain ⟨x, hx, hst⟩ := (Unmoved.givenUp v k z).conn c x' hx' ho'
        exact (ih x hx (hst.isOpen ho')).recalls (.givenUp v k z)
    obtain ⟨z, hz, hd, -⟩ := served hw
    exact ⟨remembers hw x hx ho, z, hz, hd⟩
  · rw [ha] at hc
    cases hc

/-! ## What messages start -/

/-- The handlers that a message starts that comes in over a connection. -/
def launched (w : Network) (c : Nat) (m : Message) : List Handler :=
  ((w.receive c m).runs.drop w.runs.length).map Run.handler

/-- The handlers that a message starts are those of the runs that it adds. -/
theorem launched_of_starts {m : Message} {ys : List Run} (h : Starts w (w.receive c m) ys) :
    w.launched c m = ys.map Run.handler := by
  rw [launched, h.runs, List.drop_left]

/-- A message that adds no run starts no handler. -/
theorem launched_of_length {m : Message} (h : (w.receive c m).runs.length = w.runs.length) :
    w.launched c m = [] := by
  rw [launched, List.drop_of_length_le (Nat.le_of_eq h), List.map_nil]

/-- A message starts the handlers that its dispatcher finds. -/
theorem launched_eq {z : Dispatcher} (hx : w.conns[c]? = some x) (hd : x.dispatcher = some d)
    (hz : w.dispatchers[d]? = some z) (m : Message) : w.launched c m = z.serving m := by
  have hroute : w.receive c m = (w.emit (.received c m)).route c d m := by
    rw [receive, hx, Option.bind_some, hd]
  -- By the kind of the message: requests have one handler or none, notifications as many as stand
  -- for them.
  cases m with
  | request id method params =>
    rw [Dispatcher.serving]
    cases hh : z.handlerFor method params with
    | some handler => rw [launched_of_starts (starts_request hx hd hz id hh)]; rfl
    | none => rw [launched_of_length (congrArg _ (declines_request hx hd hz id hh).runs)]; rfl
  | notification method params =>
    rw [Dispatcher.serving]
    split
    · next hm =>
      subst hm
      refine launched_of_length ?_
      rw [hroute, route, receiveNotification, if_pos rfl]
      obtain ⟨-, -, -, hr⟩ := receiveCancel_rest
        (w.emit (.received c (.notification cancelMethod params))) d params
      rw [hr, runsAfter]
      cases named _ d params with
      | none => rfl
      | some r => exact List.length_modify ..
    · next hm =>
      rw [launched_of_starts (starts_notification hx hd hz params hm), List.map_map]
      exact List.map_id' _
  -- A reply and a message without an id start nothing.
  | reply r =>
    refine launched_of_length ?_
    rw [hroute, route, receiveReply]
    split
    · rfl
    · next k l _ =>
      obtain ⟨q, -, he⟩ := roused_resolveCall ((w.emit (.received c (.reply r))).setLink c l) k
        (.answered r)
      rw [he]
      rfl
  | unidentified f =>
    refine launched_of_length ?_
    rw [hroute]
    rfl

/-! ## The whole -/

/-- **What a dispatcher remembers, and of whom.** While a connection is open that was connected to a
dispatcher, the dispatcher remembers of each document what the peer of this connection told last,
and of a document that this peer has told nothing about what was remembered before. So it remembers
just the documents that this peer has open exactly if nothing was left over of others; and where the
same is registered, the same came in, and the same was left over of documents that the peers have
told nothing about, every message starts the same handlers, whatever former peers sent. -/
theorem recalls_iff {left : Languages} {z : Dispatcher} (h : Engaged c d left w)
    (hz : w.dispatchers[d]? = some z) :
    (∀ u, z.languages.get? u =
      (Languages.lastNews u (w.journal.received c)).getD (left.get? u)) ∧
    ((∀ u, z.languages.get? u = (Languages.lastNews u (w.journal.received c)).join) ↔
      ∀ u, Languages.lastNews u (w.journal.received c) = none → left.get? u = none) ∧
    ∀ (w' : Network) (c' d' : Nat) (left' : Languages) (z' : Dispatcher), Engaged c' d' left' w' →
      w'.dispatchers[d']? = some z' → z.Alike z' →
      w'.journal.received c' = w.journal.received c →
      (∀ u, Languages.lastNews u (w.journal.received c) = none → left.get? u = left'.get? u) →
      ∀ m, w.launched c m = w'.launched c' m := by
  -- What is remembered, for any connection.
  have recalls : ∀ {w : Network} {c d : Nat} {left : Languages} {z : Dispatcher},
      Engaged c d left w → w.dispatchers[d]? = some z → ∀ u, z.languages.get? u =
        (Languages.lastNews u (w.journal.received c)).getD (left.get? u) := by
    intro w c d left z h hz u
    obtain ⟨⟨y, hy, hl⟩, -⟩ := h.remembers
    obtain rfl := Option.some.inj (hz.symm.trans hy)
    rw [hl, Languages.get?_hear]
  have hz' := recalls h hz
  refine ⟨hz', ⟨fun hown u hn => ?_, fun hleft u => ?_⟩, ?_⟩
  · have hu := (hz' u).symm.trans (hown u)
    rw [hn] at hu
    exact hu
  · rw [hz' u]
    cases hn : Languages.lastNews u (w.journal.received c) with
    | none => exact hleft u hn
    | some o => rfl
  · intro w' c' d' left' z' h' hy' halike hrec hleft m
    obtain ⟨-, x, hx, hd⟩ := h.remembers
    obtain ⟨-, x', hx', hd'⟩ := h'.remembers
    rw [launched_eq hx hd hz, launched_eq hx' hd' hy']
    refine halike.serving (fun u => ?_) m
    rw [hz' u, recalls h' hy' u, hrec]
    cases hn : Languages.lastNews u (w.journal.received c) with
    | none => exact hleft u hn
    | some o => rfl

/-- A former peer has left a document open, or has said nothing. The present peer opens the same
document in another language. After that the same message starts the same handlers. -/
theorem recalls_iff_reopened :
    let lean : Descriptor :=
      { method := "m", key := "k", handler := { kind := .notification, payload := .any, label := "h" },
        selector := .ofLanguage "lean", paramsType := "value" }
    let opens (language : String) : Message := .notification didOpen (.ofMembers [("textDocument",
      .ofMembers [("uri", .str "file:///a"), ("languageId", .str language)])])
    let former (bytes : List UInt8) : Network := run {} [.openScript {}, .openScript {},
      .openDispatcher, .connect 0 0, .feed 0 bytes false, .settle 9, .disconnect 0 false, .settle 9]
    let later (bytes : List UInt8) : Network := run ((former bytes).act (.connect 1 0)).2
      [.feed 1 (opens "lean").frame false, .settle 9]
    let w := ((later (opens "rust").frame).act (.register 0 lean [])).2
    let v := ((later []).act (.register 0 lean [])).2
    w.journal.received 0 = [opens "rust"] ∧ v.journal.received 0 = [] ∧
      w.journal.received 1 = [opens "lean"] ∧ ∀ m, w.launched 1 m = v.launched 1 m := by
  intro lean opens former later w v
  have engaged : ∀ (bytes : List UInt8) (left : Languages),
      ((former bytes).dispatchers[0]?).any (fun y => decide (y.languages = left)) = true ∧
        ((former bytes).act (.connect 1 0)).1 = .done ∧
        ((((later bytes).act (.register 0 lean [])).2).conns[1]?).any Connection.isOpen = true →
      Engaged 1 0 left ((later bytes).act (.register 0 lean [])).2 := by
    intro bytes left ⟨hy, hc, hx⟩
    obtain ⟨y, hy, hl⟩ := (Option.any_eq_true _ _).mp hy
    obtain ⟨x, hx, ho⟩ := (Option.any_eq_true _ _).mp hx
    exact .intro ⟨_, rfl⟩ hy (of_decide_eq_true hl) hc ((path_run _ _).trans (path_act _ _)) hx ho
  have registered : ∀ u : Network, (u.dispatchers[0]?).any (fun y =>
        y.entries.isEmpty && y.notifications.isEmpty && y.requests.isEmpty) = true →
      ∃ z, (u.act (.register 0 lean [])).2.dispatchers[0]? = some z ∧
        z.entries.map Entry.descriptor = [lean] ∧ z.notifications = [] ∧ z.requests = [] := by
    intro u hy
    obtain ⟨y, hy, hempty⟩ := (Option.any_eq_true _ _).mp hy
    simp only [Bool.and_eq_true, List.isEmpty_iff] at hempty
    obtain ⟨⟨he, hn⟩, hr⟩ := hempty
    have hreg := register_of_new hy lean [] (by rw [he]; simp)
    rw [act, hreg]
    refine ⟨_, List.getElem?_set_self (List.getElem?_eq_some_iff.mp hy).1, ?_, hn, hr⟩
    rw [he]
    rfl
  have hw : Engaged 1 0 (Languages.hear [] [opens "rust"]) w := engaged _ _ (by decide +kernel)
  have hv : Engaged 1 0 [] v := engaged _ _ (by decide +kernel)
  obtain ⟨z, hz, hze, hzn, hzr⟩ := registered (later (opens "rust").frame) (by decide +kernel)
  obtain ⟨z', hz', hze', hzn', hzr'⟩ := registered (later []) (by decide +kernel)
  have halike : z.Alike z' :=
    ⟨fun _ => by rw [hzn, hzn'], fun _ => by rw [hzr, hzr'], hze.trans hze'.symm⟩
  have hcame : w.journal.received 0 = [opens "rust"] ∧ v.journal.received 0 = [] ∧
      w.journal.received 1 = [opens "lean"] ∧ v.journal.received 1 = [opens "lean"] := by
    decide +kernel
  obtain ⟨hw0, hv0, hrec, hrec'⟩ := hcame
  -- Both peers tell about one document.
  have told : ∀ u, Languages.lastNews u [opens "lean"] = none →
      Languages.lastNews u [opens "rust"] = none := by
    intro u hn
    have hu : Uri.ofJson? (.str "file:///a") ≠ some u := by
      intro hu
      have hopens : Languages.lastNews u [opens "lean"] = some (some "lean") := if_pos hu
      cases hn.symm.trans hopens
    exact if_neg hu
  refine ⟨hw0, hv0, hrec, ?_⟩
  refine (recalls_iff hw hz).2.2 v 1 0 [] z' hv hz' halike (hrec'.trans hrec.symm) fun u hn => ?_
  rw [hrec] at hn
  rw [Languages.get?_hear, told u hn]
  rfl

/-- One peer opens a document. Over the next connection to the same dispatcher nothing came in, and
a message about that document starts a handler for its language; it would start none if the first
peer had said nothing. -/
theorem routes_by_former_peer :
    let lean : Descriptor :=
      { method := "m", key := "k", handler := { kind := .notification, payload := .any, label := "h" },
        selector := .ofLanguage "lean", paramsType := "value" }
    let about (members : List (String × Json)) : Json :=
      .ofMembers [("textDocument", .ofMembers members)]
    let opens : Message :=
      .notification didOpen (about [("uri", .str "file:///a"), ("languageId", .str "lean")])
    let m : Message := .notification "m" (about [("uri", .str "file:///a")])
    let session (bytes : List UInt8) : Network := run {} [.openScript {}, .openScript {},
      .openDispatcher, .register 0 lean [], .connect 0 0, .feed 0 bytes false, .settle 9,
      .disconnect 0 false, .settle 9, .connect 1 0, .settle 9]
    let w := session opens.frame
    let v := session []
    w.journal.received 0 = [opens] ∧ v.journal.received 0 = [] ∧
      w.journal.received 1 = [] ∧ v.journal.received 1 = [] ∧
      ((w.dispatchers[0]?).map fun z => z.languages.map Prod.snd) = some ["lean"] ∧
      ((w.launched 1 m).map Handler.label) = ["h"] ∧ ((v.launched 1 m).map Handler.label) = [] := by
  decide +kernel

end Network

end Parley

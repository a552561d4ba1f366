import Parley.Proofs.Attention
import Parley.Proofs.Delivery

/-!
# Over which connection a message goes out

What is sent through a connection goes through its dispatcher, and that sends over the connection
whose open link it is bound to. As long as a connection is connected, its dispatcher is bound to it.
Once its end has begun the same dispatcher may be bound to another one: then what is sent through
the first goes out over the second.

- `Network.Bound`: the dispatcher of an open connection is bound to it; every move keeps this.
- `Network.Sent`: messages were put into the queue of one connection, and of no other.
- `Network.SendsOwn`: a connection sends over itself, and only while it is connected.
- `Network.sends_own_iff`: when it does, and where messages go when it does not.
-/

namespace Parley

/-! ## Links that stay with their dispatchers -/

namespace Connection

/-- What becomes of a connection that is not connected anew: it keeps its dispatcher, and its link
is not opened again. -/
structure Stays (x y : Connection) : Prop where
  dispatcher : y.dispatcher = x.dispatcher
  isOpen : y.isOpen = true → x.isOpen = true

namespace Stays

variable {c : Nat} {x y z : Connection} {es : List Event}

theorem refl (x : Connection) : Stays x x := ⟨rfl, id⟩

theorem trans (h : Stays x y) (h' : Stays y z) : Stays x z :=
  ⟨h'.dispatcher.trans h.dispatcher, fun hz => h.isOpen (h'.isOpen hz)⟩

/-- Only whether the link is open matters. -/
theorem withLink {l : Link} (hl : x.link = some l) {k : Link} (ho : k.isOpen = l.isOpen) :
    Stays x { x with link := some k } := by
  refine ⟨rfl, fun hy => ?_⟩
  rw [isOpen_of_link hl, ← ho]
  exact hy

/-- A connection that takes a message stays what it is, but for its queue. -/
theorem offer (x : Connection) (m : Message) : Stays x (x.offer m) := by
  rcases x.offer_cases 0 m with ⟨l, hl, -, -, hx⟩ | ⟨-, -, hx⟩
  · rw [hx]
    exact withLink hl rfl
  · rw [hx]
    exact .refl x

/-- Forgetting a request changes no more than the table and the queue. -/
theorem forget (x : Connection) (id : Id) : Stays x (x.forget id) := by
  rcases x.forget_cases 0 id with ⟨l, k, y, hl, -, rfl, -, hx⟩ | ⟨-, -, hx⟩
  · rw [hx]
    exact (withLink (k := { l with pending := Link.without id l.pending }) hl rfl).trans (offer _ _)
  · rw [hx]
    exact .refl x

/-- A loop that stops is inside a connection, and stays there. -/
theorem stopWriting (x : Connection) : Stays x x.stopWriting := by
  refine ⟨rfl, fun hy => ?_⟩
  cases hl : x.link with
  | none => simp [Connection.stopWriting, Connection.isOpen, hl] at hy
  | some l => simpa [Connection.stopWriting, Connection.isOpen, hl] using hy

/-- The end of a connection never opens it again. -/
theorem cut (x : Connection) (flush : Bool) : Stays x (x.cut flush) := by
  refine ⟨rfl, fun hy => ?_⟩
  cases hl : x.link <;> simp [Connection.cut, Connection.isOpen, hl, Link.close] at hy

/-- Neither do the turns of its loops. -/
theorem turn (h : x.Turn c es y) : Stays x y := by
  cases h with
  | beginFrame ha hw hl hq =>
    refine ⟨rfl, fun hy => ?_⟩
    rw [isOpen_of_link hl]
    exact hy
  | stopAborted | stopDrained | stopBroken => exact stopWriting x
  | _ => exact ⟨rfl, id⟩

end Stays

end Connection

namespace Network

variable {w w' : Network}

/-- What a move leaves alone that connects nothing: links stay with their dispatchers, and
dispatchers stay bound to what they are bound to. -/
structure Unmoved (w w' : Network) : Prop where
  conn : ∀ (c : Nat) (y : Connection), w'.conns[c]? = some y → y.isOpen = true →
    ∃ x, w.conns[c]? = some x ∧ x.Stays y
  dispatcher : ∀ (d : Nat) (x : Dispatcher), w.dispatchers[d]? = some x →
    ∃ y, w'.dispatchers[d]? = some y ∧ y.bound = x.bound

namespace Unmoved

theorem trans {u v w : Network} (h : Unmoved u v) (h' : Unmoved v w) : Unmoved u w := by
  refine ⟨fun c z hz ho => ?_, fun d x hx => ?_⟩
  · obtain ⟨y, hy, hs⟩ := h'.conn c z hz ho
    obtain ⟨x, hx, hs'⟩ := h.conn c y hy (hs.isOpen ho)
    exact ⟨x, hx, hs'.trans hs⟩
  · obtain ⟨y, hy, hb⟩ := h.dispatcher d x hx
    obtain ⟨z, hz, hb'⟩ := h'.dispatcher d y hy
    exact ⟨z, hz, hb'.trans hb⟩

/-- Nothing has become of connections and dispatchers. -/
theorem same (hc : w'.conns = w.conns) (hd : w'.dispatchers = w.dispatchers) : Unmoved w w' := by
  refine ⟨fun c y hy _ => ⟨y, ?_, .refl y⟩, fun d x hx => ⟨x, ?_, rfl⟩⟩
  · rwa [← hc]
  · rwa [hd]

/-- One connection changes. -/
theorem conns {c : Nat} {f : Connection → Connection}
    (hf : ∀ x, w.conns[c]? = some x → x.Stays (f x)) (hc : w'.conns = w.conns.modify c f)
    (hd : w'.dispatchers = w.dispatchers) : Unmoved w w' := by
  refine ⟨fun i y hy _ => ?_, fun d x hx => ⟨x, by rwa [hd], rfl⟩⟩
  rw [hc] at hy
  obtain ⟨x, hx, rfl⟩ := getElem?_modify_eq_some hy
  refine ⟨x, hx, ?_⟩
  split
  · next h =>
    subst h
    exact hf x hx
  · exact .refl x

/-- One connection changes and stays what it is; nothing is bound anew. -/
theorem set {c : Nat} {x y : Connection} (hx : w.conns[c]? = some x) (hs : x.Stays y)
    (hc : w'.conns = w.conns.set c y) (hd : w'.dispatchers = w.dispatchers) : Unmoved w w' := by
  refine conns (f := fun _ => y) (fun z hz => ?_) (hc.trans (modify_eq_set hx fun _ => y).symm) hd
  obtain rfl := Option.some.inj (hx.symm.trans hz)
  exact hs

/-- One dispatcher changes, but not what it is bound to. -/
theorem dispatchers {d : Nat} {f : Dispatcher → Dispatcher}
    (hf : ∀ x, w.dispatchers[d]? = some x → (f x).bound = x.bound)
    (hc : w'.conns = w.conns) (hd : w'.dispatchers = w.dispatchers.modify d f) : Unmoved w w' := by
  refine ⟨fun c y hy _ => ⟨y, by rwa [← hc], .refl y⟩, fun i x hx => ?_⟩
  rw [hd, List.getElem?_modify, hx]
  by_cases h : d = i
  · subst h
    exact ⟨f x, by simp, hf x hx⟩
  · exact ⟨x, by simp [h], rfl⟩

/-- One dispatcher changes, and is bound to what it was bound to. -/
theorem setDispatcher {d : Nat} {x y : Dispatcher} (hx : w.dispatchers[d]? = some x)
    (hc : w'.conns = w.conns) (hd : w'.dispatchers = w.dispatchers.set d y)
    (hb : y.bound = x.bound) : Unmoved w w' := by
  refine dispatchers (f := fun _ => y) (fun z hz => ?_) hc
    (hd.trans (modify_eq_set hx fun _ => y).symm)
  obtain rfl := Option.some.inj (hx.symm.trans hz)
  exact hb

/-- A connection that was just made has no link yet. -/
theorem opened {xs : List Connection} (h : ∀ x ∈ xs, x.IsFresh) :
    Unmoved w { w with conns := w.conns ++ xs } := by
  refine ⟨fun c y hy ho => ?_, fun d x hx => ⟨x, hx, rfl⟩⟩
  rcases Nat.lt_or_ge c w.conns.length with hlt | hge
  · exact ⟨y, by rwa [List.getElem?_append_left hlt] at hy, .refl y⟩
  · rw [List.getElem?_append_right hge] at hy
    obtain ⟨config, stream, rfl⟩ := h y (List.mem_of_getElem? hy)
    cases ho

theorem enqueue (w : Network) (c : Nat) (m : Message) : Unmoved w (w.enqueue c m) :=
  conns (fun x _ => .offer x m) rfl rfl

theorem expired (w : Network) (k : Nat) (x : Call) : Unmoved w (w.expired k x) :=
  conns (fun y _ => .forget y x.id) rfl rfl

theorem givenUp (w : Network) (k : Nat) (x : Call) : Unmoved w (w.givenUp k x) :=
  conns (fun y _ => .forget y x.id) rfl rfl

/-- A call that begins is bound to nothing else by that. -/
theorem begun {l l' : Link} {x : Call} (params : Json) (hl : w.link? x.conn = some l)
    (hs : l.start w.calls.length x.method params = some (x.id, l')) :
    Unmoved w (w.begun x l' params) := by
  obtain ⟨y, hy, hl⟩ := link?_eq_some.mp hl
  obtain ⟨-, -, hl'⟩ := Link.start_eq_some hs
  refine conns (fun z hz => ?_) rfl rfl
  obtain rfl := Option.some.inj (hy.symm.trans hz)
  exact .withLink hl (by rw [hl'])

/-- The end of a run binds nothing. -/
theorem concluded (w : Network) (r : Nat) (y : Run) (outcome : Except Failure Json) :
    Unmoved w (w.concluded r y outcome) := by
  rw [Network.concluded]
  cases y.id with
  | none => exact same rfl rfl
  | some id =>
    refine trans ?_ (enqueue _ _ _)
    exact dispatchers (f := fun d => d.leave id) (fun _ _ => rfl) rfl rfl

end Unmoved

/-- A move connects a connection to a dispatcher that is bound to no open link, or leaves links and
dispatchers together. -/
theorem Move.unmoved (h : Move w w') : Unmoved w w' ∨ ∃ c d x, w.conns[c]? = some x ∧
    x.phase = .disconnected ∧ w.boundConn? d = none ∧ (w.dispatchers[d]?).isSome = true ∧
    w' = (w.modifyConn c fun x => x.start d).modifyDispatcher d
      fun y => { y with bound := some c } := by
  cases h with
  | connect d hx hp hd hy => exact .inr ⟨_, d, _, hx, hp, hd, hy, rfl⟩
  -- Every move but `connect` leaves bindings alone.
  | openConns h => exact .inl (.opened h)
  | openDispatcher =>
    refine .inl ⟨fun c y hy _ => ⟨y, hy, .refl y⟩, fun d x hx => ⟨x, ?_, rfl⟩⟩
    exact getElem?_append_of_some hx _
  | arrange hx hk => exact .inl (.setDispatcher hx rfl rfl hk.bound)
  | register descriptor r hx => exact .inl (.setDispatcher hx rfl rfl rfl)
  | @receive c d x m =>
    exact .inl (.dispatchers (fun z _ => congrArg (·.bound) (z.heed_eq m)) rfl rfl)
  | turn hx ht => exact .inl (.set hx (.turn ht) rfl rfl)
  | notify c method params => exact .inl (.enqueue w c _)
  | call hl hs => exact .inl (.begun _ hl hs)
  | forward hl hs => exact .inl ((Unmoved.begun _ hl hs).trans (.same rfl rfl))
  | callLate hl hs => exact .inl ((Unmoved.begun _ hl hs).trans (.expired _ _ _))
  | expire => exact .inl (.expired _ _ _)
  | answer hx hr hl ha | strand hx hl ha =>
    exact .inl (.set hx (.withLink hl (by rw [(Link.answer_eq_some ha).2])) rfl rfl)
  | @serve c x y d id =>
    exact .inl (.dispatchers (f := fun d => d.enter id w.runs.length) (fun _ _ => rfl) rfl rfl)
  | refuse => exact .inl (.conns (fun x _ => .offer x _) rfl rfl)
  | finish => exact .inl (.concluded _ _ _ _)
  | cut flush => exact .inl (.conns (fun x _ => .cut x flush) rfl rfl)
  | _ => exact .inl (.same rfl rfl)

/-! ## Dispatchers and the connections they are bound to -/

/-- The dispatcher of an open connection is bound to it. -/
def Bound (w : Network) : Prop :=
  ∀ (c : Nat) (x : Connection), w.conns[c]? = some x → x.isOpen = true →
    ∃ d y, x.dispatcher = some d ∧ w.dispatchers[d]? = some y ∧ y.bound = some c

/-- The connection of a dispatcher is the one that it is bound to, as long as that one is open. -/
theorem boundConn?_eq_some {d b : Nat} : w.boundConn? d = some b ↔
    (∃ y, w.dispatchers[d]? = some y ∧ y.bound = some b) ∧
      ∃ x, w.conns[b]? = some x ∧ x.isOpen = true := by
  simp [boundConn?, Option.filter_eq_some_iff, Option.bind_eq_some_iff, Option.any_eq_true]

namespace Bound

/-- A dispatcher stays bound to the connection that is open, when nothing is bound anew. -/
theorem unmoved (h : w.Bound) (hm : Unmoved w w') : w'.Bound := by
  intro c y hy ho
  obtain ⟨x, hx, hs⟩ := hm.conn c y hy ho
  obtain ⟨d, z, hd, hz, hb⟩ := h c x hx (hs.isOpen ho)
  obtain ⟨z', hz', hb'⟩ := hm.dispatcher d z hz
  exact ⟨d, z', hs.dispatcher.trans hd, hz', hb'.trans hb⟩

/-- A dispatcher that is bound to no open link may be bound to another one. -/
theorem connected (h : w.Bound) {c d : Nat} (hn : w.boundConn? d = none)
    (hd : (w.dispatchers[d]?).isSome = true) :
    ((w.modifyConn c fun x => x.start d).modifyDispatcher d
      fun y => { y with bound := some c }).Bound := by
  intro i y hy ho
  change (w.modifyConn c fun x => x.start d).conns[i]? = some y at hy
  obtain ⟨z, hz⟩ := Option.isSome_iff_exists.mp hd
  obtain ⟨x, hx, rfl⟩ := getElem?_modify_eq_some hy
  by_cases hi : c = i
  · subst hi
    rw [if_pos rfl]
    exact ⟨d, { z with bound := some c }, rfl, by simp [modifyDispatcher, modifyConn, hz], rfl⟩
  · rw [if_neg hi] at ho ⊢
    obtain ⟨e, u, he, hu, hb⟩ := h i x hx ho
    -- The other connection is open, so its dispatcher is another one.
    have hne : d ≠ e := by
      rintro rfl
      have hb := boundConn?_eq_some.mpr ⟨⟨u, hu, hb⟩, x, hx, ho⟩
      cases hb.symm.trans hn
    exact ⟨e, u, he, by simp [modifyDispatcher, modifyConn, hne, hu], hb⟩

/-- A connection that connects finds a dispatcher whose former connection is closed. -/
theorem move (h : w.Bound) (hm : Move w w') : w'.Bound := by
  rcases hm.unmoved with hm | ⟨c, d, x, -, -, hn, hd, rfl⟩
  · exact h.unmoved hm
  · exact h.connected hn hd

/-- What is sent through the dispatcher of an open connection goes out over this connection. -/
theorem boundConn? (h : w.Bound) {c : Nat} {x : Connection} (hx : w.conns[c]? = some x)
    (ho : x.isOpen = true) : ∃ d, x.dispatcher = some d ∧ w.boundConn? d = some c := by
  obtain ⟨d, y, hd, hy, hb⟩ := h c x hx ho
  exact ⟨d, hd, boundConn?_eq_some.mpr ⟨⟨y, hy, hb⟩, x, hx, ho⟩⟩

end Bound

/-- So whoever is open is what its dispatcher is bound to, in every run. -/
theorem Path.bound (h : Path {} w) : w.Bound :=
  h.keeps (fun hv hm => hv.move hm) (fun _ hv => hv.unmoved (.same rfl rfl))
    (fun hv _ _ _ => hv.unmoved (.givenUp _ _ _)) fun _ _ hx => by cases hx

/-! ## What is sent -/

/-- Some messages were put into the queue of one connection, and nothing has become of any other. -/
structure Sent (w w' : Network) (b : Nat) (ms : List Message) : Prop where
  queue : ∃ l l', w.link? b = some l ∧ w'.link? b = some l' ∧
    l'.queue = l.queue ++ ms.map Outbound.message
  accepted : w'.journal.accepted b = w.journal.accepted b ++ ms
  other : ∀ c, c ≠ b → w'.conns[c]? = w.conns[c]? ∧
    w'.journal.accepted c = w.journal.accepted c

namespace Sent

variable {u v : Network} {b : Nat} {ms ns : List Message}

theorem trans (h : Sent u v b ms) (h' : Sent v w b ns) : Sent u w b (ms ++ ns) := by
  refine ⟨?_, ?_, fun c hc => ?_⟩
  · obtain ⟨l, l₁, hl, hl₁, hq⟩ := h.queue
    obtain ⟨l₂, l₃, hl₂, hl₃, hq'⟩ := h'.queue
    obtain rfl := Option.some.inj (hl₁.symm.trans hl₂)
    exact ⟨l, l₃, hl, hl₃, by rw [hq', hq, List.map_append, List.append_assoc]⟩
  · rw [h'.accepted, h.accepted, List.append_assoc]
  · obtain ⟨hx, ha⟩ := h.other c hc
    obtain ⟨hx', ha'⟩ := h'.other c hc
    exact ⟨hx'.trans hx, ha'.trans ha⟩

/-- The link of one connection changes, and the journal says so. -/
theorem setLink {l : Link} (l' : Link) (es : List Event) (hl : w.link? b = some l)
    (hc : w'.conns = (w.setLink b l').conns) (hq : l'.queue = l.queue ++ ms.map .message)
    (hj : w'.journal = es ++ w.journal)
    (he : ∀ c, Journal.accepted c es = if c = b then ms else []) : Sent w w' b ms := by
  obtain ⟨x, hx, -⟩ := link?_eq_some.mp hl
  refine ⟨⟨l, l', hl, ?_, hq⟩, ?_, fun c hne => ⟨?_, ?_⟩⟩
  · rw [link?, hc, Network.setLink, getElem?_modifyConn_self, hx]
    rfl
  · rw [hj, Journal.accepted_append, he, if_pos rfl]
  · rw [hc, Network.setLink, getElem?_modifyConn_ne _ _ hne]
  · rw [hj, Journal.accepted_append, he, if_neg hne, List.append_nil]

/-- Tasks are woken, or something is noted that is no message. -/
theorem quiet (es : List Event) (h : Sent u v b ms) (hc : w.conns = v.conns)
    (hj : w.journal = es ++ v.journal) (he : ∀ c, Journal.accepted c es = []) : Sent u w b ms := by
  have ha : ∀ c, w.journal.accepted c = v.journal.accepted c := fun c => by
    rw [hj, Journal.accepted_append, he, List.append_nil]
  refine ⟨?_, (ha b).trans h.accepted, fun c hne => ?_⟩
  · rw [show w.link? b = v.link? b by rw [link?, hc, link?]]
    exact h.queue
  · rw [hc, ha]
    exact h.other c hne

/-- Waking tasks sends nothing. -/
theorem roused (h : Sent u v b ms) (hr : Roused v w) : Sent u w b ms := by
  obtain ⟨q, -, rfl⟩ := hr
  exact h.quiet [] rfl rfl fun _ => rfl

/-- An open connection takes a message. -/
theorem enqueue {l : Link} (hl : w.link? b = some l) (ho : l.isOpen = true) (m : Message) :
    Sent w (w.enqueue b m) b [m] := by
  obtain ⟨x, hx, hx'⟩ := link?_eq_some.mp hl
  rw [enqueue_of_open m hx hx' ho]
  refine setLink _ [.accepted b m] hl rfl rfl rfl fun c => ?_
  by_cases h : c = b
  · simp [Journal.accepted, h]
  · simp [Journal.accepted, h, Ne.symm h]

end Sent

section send

variable {b d : Nat}

/-- The link that a dispatcher is bound to takes every message. -/
theorem exists_open_link (hb : w.boundConn? d = some b) :
    ∃ l, w.link? b = some l ∧ l.isOpen = true := by
  obtain ⟨-, x, hx, ho⟩ := boundConn?_eq_some.mp hb
  cases hl : x.link with
  | none => simp [Connection.isOpen, hl] at ho
  | some l => exact ⟨l, link?_eq_some.mpr ⟨x, hx, hl⟩, by rwa [Connection.isOpen_of_link hl] at ho⟩

/-- What goes through a dispatcher goes out over the connection that it is bound to. -/
theorem sendVia_of_bound (hb : w.boundConn? d = some b) (m : Message) :
    ∃ v, w.sendVia d m = .ok v ∧ Sent w v b [m] := by
  obtain ⟨l, hl, ho⟩ := exists_open_link hb
  cases hs : w.sendOn b m with
  | none => simp [sendOn, hl, Link.send, ho] at hs
  | some v =>
    refine ⟨v, by simp [sendVia, hb, hs], ?_⟩
    exact (Sent.enqueue hl ho m).roused (sendOn_eq_some hs)

/-- How a call begins over the link that a dispatcher is bound to. Its request is the last message
in the queue, and it is the call that waits under its identifier. -/
theorem startCall_of_bound (hb : w.boundConn? d = some b) (method : String) (params : Json)
    (shape : Option Json.Shape) :
    ∃ v x l, w.startCall d method params shape none = .ok (w.calls.length, v) ∧
      v.calls[w.calls.length]? = some x ∧ x.conn = b ∧ x.state = .waiting ∧
      v.link? b = some l ∧ l.isOpen = true ∧ l.pending.lookup x.id = some w.calls.length ∧
      Sent w v b [.request x.id method params] := by
  obtain ⟨l, hl, ho⟩ := exists_open_link hb
  obtain ⟨y, hy, -⟩ := link?_eq_some.mp hl
  let k := w.calls.length
  let id := l.counter.next.1
  let l' : Link := { l with
    counter := l.counter.next.2
    pending := Link.without id l.pending ++ [(id, k)]
    queue := l.queue ++ [.message (.request id method params)] }
  have hs : l.start w.calls.length method params = some (id, l') := by
    rw [Link.start, if_pos ho]
  let x : Call :=
    { conn := b, id, method, shape, deadline := w.deadline b, waiter := .caller k }
  -- A call that waits under the same identifier loses it first.
  let u : Network := (l.pending.lookup id).elim w w.strand
  have hlen : u.calls.length = k := by
    show ((l.pending.lookup id).elim w w.strand).calls.length = k
    cases l.pending.lookup id with
    | none => rfl
    | some n => exact List.length_modify ..
  have hconns : u.conns = w.conns := by
    show ((l.pending.lookup id).elim w w.strand).conns = w.conns
    cases l.pending.lookup id <;> rfl
  obtain ⟨es, hj, he⟩ : ∃ es, u.journal = es ++ w.journal ∧ ∀ c, Journal.accepted c es = [] := by
    show ∃ es, ((l.pending.lookup id).elim w w.strand).journal = es ++ w.journal ∧ _
    cases l.pending.lookup id with
    | none => exact ⟨[], rfl, fun _ => rfl⟩
    | some n => exact ⟨[.stranded n], rfl, fun _ => rfl⟩
  obtain ⟨v, hv, hr⟩ : ∃ v, w.startCall d method params shape none = .ok (k, v) ∧
      Roused (u.begun x l' params) v := by
    have hbegun : (({ u with calls := u.calls ++ [x] }.setLink b l').emit (.started k)).emit
        (.accepted b (.request id method params)) = u.begun x l' params := by
      rw [begun, hlen]
      rfl
    refine ⟨_, by simp only [startCall, hb, hl, Option.bind_some, hs, Option.map_some]; rfl, ?_⟩
    have hwake : ∀ (v : Network) (o : Option Nat), Roused v (o.elim v v.wakeCall) := by
      rintro v (_ | n)
      · exact .refl v
      · exact roused_wakeCall v n
    rw [← hbegun]
    exact (roused_wakeIdleWriter _ b).trans (hwake _ _)
  obtain ⟨q, hq, rfl⟩ := hr
  refine ⟨_, x, l', hv, ?_, rfl, rfl, ?_, ho, ?_, ?_⟩
  · show (u.calls ++ [x])[k]? = some x
    rw [← hlen, List.getElem?_concat_length]
  · show ((u.modifyConn b fun y => { y with link := some l' }).conns[b]?).bind (·.link) = some l'
    rw [getElem?_modifyConn_self, hconns, hy]
    rfl
  · show (Link.without id l.pending ++ [(id, k)]).lookup id = some k
    rw [List.lookup_append, Link.lookup_without]
    simp
  · refine Sent.setLink l' (.accepted b (.request id method params) ::
      .started u.calls.length :: es) hl ?_ rfl ?_ fun c => ?_
    · show (u.modifyConn b fun y => { y with link := some l' }).conns = _
      rw [modifyConn, hconns]
      rfl
    · show _ :: _ :: u.journal = _
      rw [hj]
      rfl
    · by_cases h : c = b
      · simp [Journal.accepted, he, h, x]
      · simp [Journal.accepted, he, h, Ne.symm h]

/-- A call that has lasted too long gives its own request up, and the peer is told. -/
theorem sent_checkCall {k : Nat} {x : Call} {l : Link} (hk : w.calls[k]? = some x)
    (hx : x.state = .waiting) (hl : w.link? x.conn = some l) (ho : l.isOpen = true)
    (hp : l.pending.lookup x.id = some k) :
    ∃ ms, Sent w (w.checkCall k) x.conn ms ∧ (ms = [] ∨ ms = [cancelMessage x.id]) := by
  obtain ⟨y, hy, -⟩ := link?_eq_some.mp hl
  have hself : Sent w w x.conn [] := ⟨⟨l, l, hl, hl, by simp⟩, by simp, fun _ _ => ⟨rfl, rfl⟩⟩
  cases hd : x.isOverdue w.clock with
  | false =>
    rw [checkCall_of_early hk hx hd]
    exact ⟨[], hself, .inl rfl⟩
  | true =>
    let l' : Link := { l with pending := Link.without x.id l.pending }
    have ha : l.answer x.id = some (k, l') := by simp [Link.answer, hp, l']
    have hown : w.Owns k x.conn x.id := fun l₁ n hl₁ hn => by
      obtain rfl := Option.some.inj (hl.symm.trans hl₁)
      exact Option.some.inj (hn.symm.trans hp)
    have hw : (w.setLink x.conn l').link? x.conn = some l' := by
      rw [link?, setLink, getElem?_modifyConn_self, hy]
      rfl
    -- The entry is taken out of the table first, and then the peer is told.
    have hforget : Sent w (w.setLink x.conn l') x.conn [] :=
      .setLink l' [] hl rfl (by simp [l']) rfl (by simp [Journal.accepted])
    have htold := hforget.trans (.enqueue hw ho (cancelMessage x.id))
    rw [← withdraw_of_present hl ha] at htold
    rw [checkCall_eq_of_overdue hk hx hd]
    refine ⟨[cancelMessage x.id], ?_, .inr rfl⟩
    exact (htold.roused (roused_abandon hown)).quiet [.ended k _] rfl rfl fun _ => rfl

/-- A call over the link that a dispatcher is bound to. -/
theorem call_of_bound {sender : Sender} (hd : w.dispatcherOf sender = .ok d)
    (hb : w.boundConn? d = some b) (method : String) (params : Json) (shape : Option Json.Shape) :
    ∃ v y ms, w.call sender method (.ok params) shape = .ok (w.calls.length, v) ∧
      v.calls[w.calls.length]? = some y ∧ y.conn = b ∧
      Sent w v b (.request y.id method params :: ms) ∧ (ms = [] ∨ ms = [cancelMessage y.id]) := by
  obtain ⟨v, x, l, hs, hk, rfl, hx, hl, ho, hp, hsent⟩ := startCall_of_bound hb method params shape
  obtain ⟨ms, hms, hcases⟩ := sent_checkCall hk hx hl ho hp
  obtain ⟨-, y, hy, hlater⟩ := (moves_checkCall v w.calls.length).pressing hk
  have hi : y.id = x.id := by rw [hlater.same]
  refine ⟨v.checkCall w.calls.length, y, ms, ?_, hy, by rw [hlater.same], ?_, ?_⟩
  · simp [call, hd, hs, Except.map]
  · rw [hi]
    exact hsent.trans hms
  · rwa [hi]

end send

/-! ## What is sent through a connection -/

/-- Whether a connection is connected. -/
def IsConnected (w : Network) (c : Nat) : Prop :=
  ∃ x, w.conns[c]? = some x ∧ x.phase = .connected

/-- The connection over which goes out what is sent through a connection. -/
def outlet (w : Network) (c : Nat) : Option Nat :=
  ((w.conns[c]?).bind (·.dispatcher)).bind w.boundConn?

/-- What is sent through one connection goes out over another one, or the same: a notification, and
the request of a call. A call that has no time at all is given up at once, and the peer told. -/
def SendsOver (w : Network) (c b : Nat) : Prop :=
  (∀ method params, ∃ v, w.act (.notify (.conn c) method (.ok params)) = (.done, v) ∧
    Sent w v b [.notification method params]) ∧
  ∀ method params shape, ∃ v y ms,
    w.act (.call (.conn c) method (.ok params) shape) = (.made w.calls.length, v) ∧
      v.calls[w.calls.length]? = some y ∧ y.conn = b ∧
      Sent w v b (.request y.id method params :: ms) ∧ (ms = [] ∨ ms = [cancelMessage y.id])

/-- What is sent through a connection is refused, and nothing changes. -/
def Refuses (w : Network) (c : Nat) : Prop :=
  (∀ method params,
    w.act (.notify (.conn c) method (.ok params)) = (.refused .notConnected, w)) ∧
  ∀ method params shape,
    w.act (.call (.conn c) method (.ok params) shape) = (.refused .notConnected, w)

/-- A connection sends over itself, and only while it is connected. -/
def SendsOwn (w : Network) (c : Nat) : Prop :=
  (w.IsConnected c → w.SendsOver c c) ∧ (¬ w.IsConnected c → w.Refuses c)

section outlet

variable {b c : Nat}

/-- Whoever has an outlet sends everything over it. -/
theorem sendsOver_of_outlet (h : w.outlet c = some b) : w.SendsOver c b := by
  obtain ⟨d, hd, hb⟩ := Option.bind_eq_some_iff.mp h
  have hof : w.dispatcherOf (.conn c) = .ok d := by simp [dispatcherOf, hd]
  constructor
  · intro method params
    obtain ⟨v, hv, hs⟩ := sendVia_of_bound hb (.notification method params)
    exact ⟨v, by simp [act, notify, hof, hv, attempt], hs⟩
  · intro method params shape
    obtain ⟨v, y, ms, hv, hy⟩ := call_of_bound hof hb method params shape
    exact ⟨v, y, ms, by simp [act, hv, attemptMade], hy⟩

/-- Whoever has none is refused, whatever is to be sent. -/
theorem refuses_of_outlet (h : w.outlet c = none) : w.Refuses c := by
  cases hd : (w.conns[c]?).bind (·.dispatcher) with
  | none =>
    have hof : w.dispatcherOf (.conn c) = .error .notConnected := by simp [dispatcherOf, hd]
    exact ⟨fun _ _ => by simp [act, notify, hof, attempt],
      fun _ _ _ => by simp [act, call, hof, attemptMade]⟩
  | some d =>
    have hof : w.dispatcherOf (.conn c) = .ok d := by simp [dispatcherOf, hd]
    have hb : w.boundConn? d = none := by
      rwa [outlet, hd, Option.bind_some] at h
    exact ⟨fun _ _ => by simp [act, notify, hof, sendVia, hb, attempt],
      fun _ _ _ => by simp [act, call, hof, startCall, hb, Except.map, attemptMade]⟩

/-- An open connection is connected, and the other way round. -/
theorem Reachable.isConnected_iff (h : Reachable w) {x : Connection} (hx : w.conns[c]? = some x) :
    x.phase = .connected ↔ x.isOpen = true := by
  constructor
  · intro hp
    obtain ⟨l, hl⟩ := (h.sound.conn c x hx).live_of_isLive (by rw [hp]; rfl)
    rw [Connection.isOpen_of_link hl.link, hl.isOpen]
  · intro ho
    obtain ⟨l, hl⟩ := (h.sound.conn c x hx).live_of_isOpen ho
    exact hl.phase

/-- A connected connection is the one that its dispatcher is bound to. -/
theorem Reachable.outlet_of_isConnected (h : Reachable w) (hc : w.IsConnected c) :
    w.outlet c = some c := by
  obtain ⟨x, hx, hp⟩ := hc
  obtain ⟨d, hd, hb⟩ := h.path.bound.boundConn? hx ((h.isConnected_iff hx).mp hp)
  simp [outlet, hx, hd, hb]

/-- Messages go out over connected connections only. -/
theorem Reachable.isConnected_of_outlet (h : Reachable w) (hr : w.outlet c = some b) :
    w.IsConnected b := by
  obtain ⟨d, -, hb⟩ := Option.bind_eq_some_iff.mp hr
  obtain ⟨-, x, hx, ho⟩ := boundConn?_eq_some.mp hb
  exact ⟨x, hx, (h.isConnected_iff hx).mpr ho⟩

end outlet

/-- **Where messages go.** A connection sends over itself, and only while it is connected, unless
its end has begun and its dispatcher was bound to another connection since then. Then everything
that is sent through the first one goes out over the second. -/
theorem sends_own_iff (h : Reachable w) (c : Nat) :
    (w.SendsOwn c ↔ ∀ b, w.outlet c = some b → b = c) ∧
    (w.IsConnected c → w.SendsOver c c) ∧
    (w.outlet c = none → w.Refuses c) ∧
    ∀ b, w.outlet c = some b → b ≠ c → ¬ w.IsConnected c ∧ w.IsConnected b ∧ w.SendsOver c b := by
  have hown : w.IsConnected c → w.SendsOver c c := fun hc =>
    sendsOver_of_outlet (h.outlet_of_isConnected hc)
  refine ⟨⟨fun hs b hb => ?_, fun hb => ⟨hown, fun hc => ?_⟩⟩, hown, refuses_of_outlet,
    fun b hb hne => ⟨fun hc => hne ?_, h.isConnected_of_outlet hb, sendsOver_of_outlet hb⟩⟩
  · -- Who sends its own has no outlet but itself: connected, it is its own outlet.
    by_cases hc : w.IsConnected c
    · exact Option.some.inj (hb.symm.trans (h.outlet_of_isConnected hc))
    · -- A notification is refused, and it is sent all the same.
      obtain ⟨v, hv, -⟩ := (sendsOver_of_outlet hb).1 "" .null
      have hrefused := (hs.2 hc).1 "" .null
      cases congrArg Prod.fst (hv.symm.trans hrefused)
  · -- The other way round, whoever is not connected has no outlet at all.
    refine refuses_of_outlet ?_
    cases hr : w.outlet c with
    | none => rfl
    | some b =>
      obtain rfl := hb b hr
      exact absurd (h.isConnected_of_outlet hr) hc
  · exact Option.some.inj (hb.symm.trans (h.outlet_of_isConnected hc))

/-- What is sent through a connection whose end has begun goes out over the next one. -/
theorem sends_own_iff_rebound :
    let w := run {} [.openScript {}, .openScript {}, .openDispatcher, .connect 0 0,
      .disconnect 0 false, .settle 9, .connect 1 0]
    ¬ w.IsConnected 0 ∧ w.IsConnected 1 ∧ w.SendsOver 0 1 ∧ w.SendsOwn 1 := by
  intro w
  have h : Reachable w := ⟨_, rfl⟩
  have h0 : w.outlet 0 = some 1 := by decide +kernel
  have h1 : w.outlet 1 = some 1 := by decide +kernel
  obtain ⟨hn, hc, hs⟩ := (sends_own_iff h 0).2.2.2 1 h0 (by rintro ⟨⟩)
  refine ⟨hn, hc, hs, (sends_own_iff h 1).1.mpr fun b hb => ?_⟩
  exact (Option.some.inj (h1.symm.trans hb)).symm

/-- A notification that is sent through a connection that is closed is accepted, by another one. -/
theorem not_sendsOwn_rebound :
    let w := run {} [.openScript {}, .openScript {}, .openDispatcher, .connect 0 0,
      .disconnect 0 false, .settle 9, .connect 1 0]
    Reachable w ∧ (w.conns[0]?).map Connection.phase = some .closed ∧
      (w.act (.notify (.conn 0) "a" (.ok .null))).1 = .done ∧
      (w.act (.notify (.conn 0) "a" (.ok .null))).2.journal.accepted 1 =
        [.notification "a" .null] ∧
      ¬ w.SendsOwn 0 := by
  intro w
  have hp : (w.conns[0]?).map Connection.phase = some .closed := by decide +kernel
  have hd : (w.act (.notify (.conn 0) "a" (.ok .null))).1 = .done := by decide +kernel
  refine ⟨⟨_, rfl⟩, hp, hd, by decide +kernel, fun h => ?_⟩
  have hn : ¬ w.IsConnected 0 := by
    rintro ⟨x, hx, hx'⟩
    rw [hx, Option.map_some, hx'] at hp
    cases hp
  have hr := (h.2 hn).1 "a" .null
  rw [hr] at hd
  cases hd

end Network

end Parley

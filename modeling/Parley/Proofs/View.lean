import Parley.Proofs.Entries
import Parley.Proofs.Move

/-!
# What one connection sees of a network

A move of a network is about one connection, or about none. Every other connection sees only that
the journal has grown by events that are not about it.

- `Network.View`: what each connection sees is a series of its own moves.
- `Network.Move.view`: every move is seen so, unless it makes connections.
- `Network.Each`: something holds of each connection and its history.
- `Network.Path.each`: what every move of a connection keeps holds of each connection of a run.
-/

namespace Parley

namespace Connection

variable {c d : Nat} {x : Connection} {e : Event}

/-- What a connection accepts concerns that connection only. -/
theorem concerns_offered {m : Message} (h : e ∈ x.offered d m) (hc : d ≠ c) :
    e.concerns c = false := by
  obtain rfl := mem_offered h
  simpa [Event.concerns] using hc

/-- What a connection forgets concerns that connection only. -/
theorem concerns_forgot {id : Id} (h : e ∈ x.forgot d id) (hc : d ≠ c) : e.concerns c = false := by
  obtain rfl := mem_forgot h
  simpa [Event.concerns] using hc

/-- What the loops of a connection do concerns that connection only. -/
theorem Turn.concerns {y : Connection} {es : List Event} (h : x.Turn d es y) (he : e ∈ es)
    (hc : d ≠ c) : e.concerns c = false := by
  obtain ⟨bs, rfl⟩ | rfl := h.mem he
  · simpa [Event.concerns] using hc
  · simpa [Event.concerns] using hc

end Connection

/-- Events of other connections are no moves of this one. -/
theorem ConnMoves.elsewhere {c : Nat} (x : Connection) {es : List Event}
    (h : ∀ e ∈ es, e.concerns c = false) : ConnMoves c x es x := by
  induction es with
  | nil => exact .refl x
  | cons e es ih =>
    have he := ih fun e he => h e (List.mem_cons_of_mem _ he)
    exact he.tail (.elsewhere e (h e List.mem_cons_self))

namespace Network

/-- What each connection sees: a series of its own moves. No connection is made. -/
def View (w w' : Network) : Prop :=
  ∃ es, w'.journal = es ++ w.journal ∧ ∀ c,
    (∃ x y, w.conns[c]? = some x ∧ w'.conns[c]? = some y ∧ ConnMoves c x es y) ∨
    (w.conns[c]? = none ∧ w'.conns[c]? = none ∧ ∀ e ∈ es, e.concerns c = false)

namespace View

variable {u v w w' : Network}

theorem trans (h : View u v) (h' : View v w) : View u w := by
  obtain ⟨es, hj, h⟩ := h
  obtain ⟨fs, hj', h'⟩ := h'
  refine ⟨fs ++ es, by rw [hj', hj, List.append_assoc], fun c => ?_⟩
  rcases h c with ⟨x, y, hx, hy, hm⟩ | ⟨hx, hy, he⟩
  · rcases h' c with ⟨y', z, hy', hz, hm'⟩ | ⟨hy', -, -⟩
    · obtain rfl := Option.some.inj (hy.symm.trans hy')
      exact .inl ⟨x, z, hx, hz, hm.trans hm'⟩
    · cases hy.symm.trans hy'
  · rcases h' c with ⟨y', z, hy', hz, hm'⟩ | ⟨-, hz, he'⟩
    · cases hy.symm.trans hy'
    · refine .inr ⟨hx, hz, fun e hm => ?_⟩
      rcases List.mem_append.mp hm with hm | hm
      · exact he' e hm
      · exact he e hm

/-- What is about no connection. -/
theorem same (hc : w'.conns = w.conns) (es : List Event) (hj : w'.journal = es ++ w.journal)
    (he : ∀ e ∈ es, ∀ c, e.concerns c = false) : View w w' := by
  refine ⟨es, hj, fun c => ?_⟩
  cases hx : w.conns[c]? with
  | none => exact .inr ⟨rfl, by rw [hc, hx], fun e hm => he e hm c⟩
  | some x => exact .inl ⟨x, x, rfl, by rw [hc, hx], .elsewhere x fun e hm => he e hm c⟩

theorem refl (w : Network) : View w w := same rfl [] rfl (by simp)

/-- What is about one connection. -/
theorem one {d : Nat} {x y : Connection} {es : List Event} (hx : w.conns[d]? = some x)
    (hc : w'.conns = w.conns.set d y) (hj : w'.journal = es ++ w.journal)
    (hm : ConnMoves d x es y) (he : ∀ e ∈ es, ∀ c, d ≠ c → e.concerns c = false) : View w w' := by
  refine ⟨es, hj, fun c => ?_⟩
  by_cases hcd : d = c
  · subst hcd
    refine .inl ⟨x, y, hx, ?_, hm⟩
    rw [hc, List.getElem?_set_self (List.getElem?_eq_some_iff.mp hx).1]
  · have hn : w'.conns[c]? = w.conns[c]? := by rw [hc, List.getElem?_set_ne hcd]
    cases hx' : w.conns[c]? with
    | none => exact .inr ⟨rfl, hn.trans hx', fun e hm => he e hm c hcd⟩
    | some z => exact .inl ⟨z, z, rfl, hn.trans hx', .elsewhere z fun e hm => he e hm c hcd⟩

/-- What one connection sees, and what does not change it. -/
theorem tell {d : Nat} {x : Connection} {es : List Event} (hx : w.conns[d]? = some x)
    (hm : ConnMove d x es x) (hc : w'.conns = w.conns) (hj : w'.journal = es ++ w.journal)
    (he : ∀ e ∈ es, ∀ c, d ≠ c → e.concerns c = false) : View w w' := by
  refine one hx ?_ hj (.single hm) he
  rw [hc]
  refine List.ext_getElem? fun i => ?_
  rw [List.getElem?_set]
  split
  · next hi =>
    obtain ⟨hn, ha⟩ := List.getElem?_eq_some_iff.mp hx
    subst hi
    simp [hn, ha]
  · rfl

end View

/-! ## Each part of a move -/

section parts

variable {w : Network} {c : Nat}

/-- The link of a connection that is there. -/
theorem link?_eq_some {l : Link} :
    w.link? c = some l ↔ ∃ x, w.conns[c]? = some x ∧ x.link = some l := by
  rw [link?, Option.bind_eq_some_iff]

/-- Sending a message is seen at one connection. -/
theorem View.enqueue (m : Message)
    (hm : ∀ x, w.conns[c]? = some x → ConnMove c x (x.offered c m) (x.offer m)) :
    View w (w.enqueue c m) := by
  cases hx : w.conns[c]? with
  | none =>
    refine View.same (modify_eq_of_none hx _) [] ?_ (by simp)
    simp [Network.enqueue, hx]
  | some x =>
    refine View.one hx (modify_eq_set hx _) ?_ (.single (hm x hx)) fun e he d hd =>
      Connection.concerns_offered he hd
    simp [Network.enqueue, hx]

/-- So is a withdrawal. -/
theorem View.withdraw (id : Id) : View w (w.withdraw c id) := by
  cases hx : w.conns[c]? with
  | none =>
    refine View.same (modify_eq_of_none hx _) [] ?_ (by simp)
    simp [Network.withdraw, hx]
  | some x =>
    refine View.one hx (modify_eq_set hx _) ?_ (.single (.forget id)) fun e he d hd =>
      Connection.concerns_forgot he hd
    simp [Network.withdraw, hx]

/-- A call that begins is seen at the connection that it goes over. -/
theorem View.begun {x : Call} {l l' : Link} {params : Json} (hl : w.link? x.conn = some l)
    (hs : l.start w.calls.length x.method params = some (x.id, l')) :
    View w (w.begun x l' params) := by
  obtain ⟨y, hy, hl⟩ := link?_eq_some.mp hl
  refine View.one hy (modify_eq_set hy _) rfl (.single (.call _ hl hs)) fun e he d hd => ?_
  simp only [List.mem_cons, List.not_mem_nil, or_false] at he
  rcases he with rfl | rfl
  · simpa [Event.concerns] using hd
  · rfl

/-- A call that has just begun has its identifier for itself. -/
theorem owns_begun {x : Call} {l l' : Link} {params : Json} (hl : w.link? x.conn = some l)
    (hs : l.start w.calls.length x.method params = some (x.id, l')) :
    (w.begun x l' params).Owns w.calls.length x.conn x.id := by
  obtain ⟨y, hy, hl⟩ := link?_eq_some.mp hl
  obtain ⟨-, -, rfl⟩ := Link.start_eq_some hs
  intro l₁ n hl₁ hn
  obtain ⟨z, hz, hl₁⟩ := link?_eq_some.mp hl₁
  rw [Network.begun, getElem?_modifyConn_self, hy] at hz
  obtain rfl := Option.some.inj hz
  obtain rfl := Option.some.inj hl₁
  simpa [List.lookup_append, Link.lookup_without] using hn.symm

/-- The end of a call is seen at no connection. -/
theorem View.endCall (k : Nat) (outcome : Except CallError Json) :
    View w (w.endCall k outcome) :=
  View.same rfl [.ended k outcome] rfl (by simp [Event.concerns])

/-- A call that runs out of time is seen at its connection, by the withdrawal. -/
theorem View.expired (k : Nat) (x : Call) : View w (w.expired k x) :=
  (View.withdraw x.id).trans (View.endCall k _)

/-- So is one that is given up. -/
theorem View.givenUp (k : Nat) (x : Call) : View w (w.givenUp k x) :=
  (View.withdraw x.id).trans (View.same rfl [.dropped k] rfl (by simp [Event.concerns]))

/-- A run that ends is seen at the connection of its request, where the reply is sent. -/
theorem View.concluded {r : Nat} {y : Run} {x : Connection} (hx : w.conns[y.conn]? = some x)
    (outcome : Except Failure Json) : View w (w.concluded r y outcome) := by
  cases hi : y.id with
  | none =>
    rw [Network.concluded, hi]
    refine View.tell hx (.finish r outcome) rfl rfl ?_
    simp +contextual [Event.concerns]
  | some id =>
    rw [Network.concluded, hi]
    refine View.one hx (modify_eq_set hx _) ?_ (.single (.reply r id outcome)) fun e he d hd => ?_
    · simp [Network.enqueue, modifyRun, emit, modifyDispatcher, hx]
    · rcases List.mem_append.mp he with he | he
      · exact Connection.concerns_offered he hd
      · obtain rfl := List.mem_singleton.mp he
        simpa [Event.concerns] using hd

end parts

/-! ## Runs -/

/-- What changes of a run without its origin leaves the origin. -/
theorem origin_modifyRun {w : Network} {r s : Nat} (f : Run → Run) {y' : Run}
    (hy : (w.modifyRun r f).runs[s]? = some y') (hf : ∀ y, (f y).origin = y.origin) :
    ∃ y, w.runs[s]? = some y ∧ y'.origin = y.origin := by
  obtain ⟨y, hy, he⟩ := getElem?_modify_eq_some hy
  refine ⟨y, hy, ?_⟩
  rw [he]
  split
  · exact hf y
  · rfl

/-- A run that was cancelled serves what it served. -/
theorem origin_runsAfter {w : Network} {o : Option Nat} {s : Nat} {y' : Run}
    (hy : (w.runsAfter o)[s]? = some y') : ∃ y, w.runs[s]? = some y ∧ y'.origin = y.origin := by
  cases o with
  | none => exact ⟨y', hy, rfl⟩
  | some r => exact origin_modifyRun _ hy fun _ => rfl

/-- A run after a move was there before, or it has just begun. -/
theorem Move.run_cases {w w' : Network} (h : Move w w') {r : Nat} {y' : Run}
    (hy : w'.runs[r]? = some y') :
    (∃ y, w.runs[r]? = some y ∧ y'.origin = y.origin) ∨
      (r = w.runs.length ∧ y'.stage = .fresh ∧ ∃ x, w.conns[y'.conn]? = some x ∧ x.IsReading) := by
  -- The runs of before keep their origins; only two moves append one.
  cases h with
  | forward => exact .inl (origin_modifyRun _ hy fun _ => rfl)
  | wait => exact .inl (origin_modifyRun _ hy fun _ => rfl)
  | receive => exact .inl (origin_runsAfter hy)
  | @finish r' y outcome =>
    have hy' :
        (w.modifyRun r' fun y => { y with stage := .finished outcome }).runs[r]? = some y' := by
      rw [← hy, concluded]
      cases y.id <;> rfl
    exact .inl (origin_modifyRun _ hy' fun _ => rfl)
  | spawn hx hr hk hc hi hs =>
    rcases getElem?_append_one hy with hy | ⟨hn, rfl⟩
    · exact .inl ⟨y', hy, rfl⟩
    · exact .inr ⟨hn, hs, _, hc ▸ hx, hr⟩
  | serve hx hr hd hd' hh hc hi hs _ =>
    rcases getElem?_append_one hy with hy | ⟨hn, rfl⟩
    · exact .inl ⟨y', hy, rfl⟩
    · exact .inr ⟨hn, hs, _, hc ▸ hx, hr⟩
  | _ => exact .inl ⟨y', hy, rfl⟩

/-- Whether every run has a connection that its message came over. -/
def Housed (w : Network) : Prop := ∀ y ∈ w.runs, y.conn < w.conns.length

/-- What each connection sees of a move. Connections that are made stand behind all others. -/
theorem Move.view {w w' : Network} (hw : w.Housed) (h : Move w w') :
    View w w' ∨ ∃ xs : List Connection, (∀ x ∈ xs, x.IsFresh) ∧
      w' = { w with conns := w.conns ++ xs } := by
  cases h with
  -- Most moves are seen nowhere or at one connection.
  | rouse hq => exact .inl (View.same rfl [] rfl (by simp))
  | remark e he =>
    refine .inl (View.same rfl [e] rfl fun e' hm d => ?_)
    obtain rfl := List.mem_singleton.mp hm
    cases e' <;> first | rfl | cases he
  | surroundings ps rs gs q hr => exact .inl (View.same rfl [] rfl (by simp))
  -- New connections cannot be seen yet, and this is the only move that makes them.
  | openConns hx => exact .inr ⟨_, hx, rfl⟩
  | openDispatcher => exact .inl (View.same rfl [] rfl (by simp))
  | arrange | register => exact .inl (View.same rfl [] rfl (by simp))
  | advance ht hq hw => exact .inl (View.same rfl [] rfl (by simp))
  | turn hx ht =>
    exact .inl (View.one hx rfl rfl (.single (.turn ht)) fun e he d hd => ht.concerns he hd)
  | connect d hx hp hd =>
    exact .inl (View.one hx (modify_eq_set hx _) rfl (.single (.start hp d)) (by simp))
  | notify c method params => exact .inl (View.enqueue _ fun x hx => .notify method params)
  | call hl hs => exact .inl (View.begun hl hs)
  | forward hl hs => exact .inl (View.begun hl hs)
  | callLate hl hs => exact .inl ((View.begun hl hs).trans (View.expired _ _))
  | learn hk hx => exact .inl (View.endCall _ _)
  | lose hk hx => exact .inl (View.endCall _ _)
  | expire hk hx hd => exact .inl (View.expired _ _)
  | answer hx hr hl ha hq hw =>
    refine .inl (View.one hx rfl rfl (.single (.answer hr hl ha)) ?_)
    simp +contextual [Event.concerns]
  | strand hx hl ha hr hq hw =>
    refine .inl (View.one hx rfl rfl (.single (.strand hl ha)) ?_)
    simp [Event.concerns]
  | receive hx hr hd hm ha =>
    refine .inl (View.tell hx (.receive hr hm) rfl rfl ?_)
    simp +contextual [Event.concerns]
  | @spawn c x y hx hr hk hc hi hy =>
    have hm : y.message = .notification y.method y.params := by simp [Run.message, hi]
    refine .inl
      (View.tell hx (.spawn hr w.runs.length y.method y.params) rfl (by simp [emit, hm]) ?_)
    simp +contextual [Event.concerns]
  | @serve c x y d id hx hr hd hd' hh hc hi hy hn =>
    have hm : y.message = .request id y.method y.params := by simp [Run.message, hi]
    refine .inl (View.tell hx (.serve hr _) rfl (by rw [hm]; rfl) ?_)
    simp +contextual [Event.concerns]
  -- A refusal is two events at the same connection, and the reply in its queue.
  | @refuse c d x id method params hx hr hd hh =>
    have hm := @ConnMove.refuse c x id method params hr
    refine .inl (View.one hx (modify_eq_set hx _) ?_ (.single hm) fun e he d hd => ?_)
    · simp [Network.enqueue, emit, hx]
    · rcases List.mem_append.mp he with he | he
      · exact Connection.concerns_offered he hd
      · simp only [List.mem_cons, List.not_mem_nil, or_false] at he
        rcases he with rfl | rfl <;> simpa [Event.concerns] using hd
  | wait hy hf hm hs => exact .inl (View.same rfl [] rfl (by simp))
  | @finish r y outcome hy hf he hk =>
    have hc := List.getElem?_eq_getElem (hw y (List.mem_of_getElem? hy))
    exact .inl (View.concluded hc _)
  | cut flush hx hp hq hw =>
    refine .inl (View.one hx (modify_eq_set hx _) rfl (.single (.cut hp flush)) ?_)
    simp +contextual [Event.concerns]

/-- No connection goes away. -/
theorem View.length_le {w w' : Network} (h : View w w') : w.conns.length ≤ w'.conns.length := by
  obtain ⟨es, -, hv⟩ := h
  refine Nat.le_of_not_lt fun hlt => ?_
  rcases hv w'.conns.length with ⟨x, y, -, hy, -⟩ | ⟨hx, -, -⟩
  · simp at hy
  · rw [List.getElem?_eq_none_iff] at hx
    omega

/-- Every move keeps the connections of runs. -/
theorem Move.housed {w w' : Network} (h : Move w w') (hw : w.Housed) : w'.Housed := by
  have hl : w.conns.length ≤ w'.conns.length := by
    rcases h.view hw with hv | ⟨xs, -, rfl⟩
    · exact hv.length_le
    · simp
  intro y' hy
  obtain ⟨r, hr⟩ := List.getElem?_of_mem hy
  rcases h.run_cases hr with ⟨y, hy, ho⟩ | ⟨-, -, x, hx, -⟩
  · have hc : y'.origin.conn = y.origin.conn := by rw [ho]
    change y'.conn = y.conn at hc
    have := hw y (List.mem_of_getElem? hy)
    omega
  · have := (List.getElem?_eq_some_iff.mp hx).1
    omega

/-- Giving up a call leaves every run a connection. -/
theorem Housed.givenUp {w : Network} (hw : w.Housed) (k : Nat) (x : Call) :
    (w.givenUp k x).Housed :=
  fun y hy => Nat.lt_of_lt_of_le (hw y hy) (View.givenUp k x).length_le

/-- Runs have connections along every path. -/
theorem Path.housed {w w' : Network} (h : Path w w') (hw : w.Housed) : w'.Housed :=
  h.keeps (fun hw hm => hm.housed hw) (fun _ hw => hw) (fun hw _ _ _ => hw.givenUp _ _) hw

/-! ## What holds of each connection -/

/-- Something holds of each connection with the journal, and the journal says nothing about
connections that are not there. -/
structure Each (P : Nat → Connection → Journal → Prop) (w : Network) : Prop where
  conn : ∀ c x, w.conns[c]? = some x → P c x w.journal
  other : ∀ c, w.conns[c]? = none → ∀ e ∈ w.journal, e.concerns c = false

section each

variable {P : Nat → Connection → Journal → Prop} {w w' : Network}

/-- What each connection keeps in its own moves, every view keeps of each. -/
theorem View.each (step : ∀ {c x y es j}, P c x j → ConnMove c x es y → P c y (es ++ j))
    (h : View w w') (hP : w.Each P) : w'.Each P := by
  obtain ⟨es, hj, hv⟩ := h
  constructor
  · intro c y hy
    rcases hv c with ⟨x, y', hx, hy', hm⟩ | ⟨-, hn, -⟩
    · obtain rfl := Option.some.inj (hy.symm.trans hy')
      rw [hj]
      exact hm.keeps (fun h hm => step h hm) (hP.conn c x hx)
    · cases hy.symm.trans hn
  · intro c hn e he
    rcases hv c with ⟨x, y', hx, hy', hm⟩ | ⟨hx, -, he'⟩
    · cases hn.symm.trans hy'
    · rw [hj] at he
      rcases List.mem_append.mp he with he | he
      · exact he' e he
      · exact hP.other c hx e he

/-- What holds of fresh connections and is kept by every move of a connection holds of each
connection after a move of the network. -/
theorem Move.each (fresh : ∀ {c x j}, x.IsFresh → (∀ e ∈ j, e.concerns c = false) → P c x j)
    (step : ∀ {c x y es j}, P c x j → ConnMove c x es y → P c y (es ++ j))
    (h : Move w w') (hw : w.Housed) (hP : w.Each P) : w'.Each P := by
  rcases h.view hw with hv | ⟨xs, hx, rfl⟩
  · exact hv.each step hP
  · constructor
    · intro c y hy
      rcases Nat.lt_or_ge c w.conns.length with hc | hc
      · rw [List.getElem?_append_left hc] at hy
        exact hP.conn c y hy
      · have hn : w.conns[c]? = none := List.getElem?_eq_none hc
        rw [List.getElem?_append_right hc] at hy
        exact fresh (hx y (List.mem_of_getElem? hy)) (hP.other c hn)
    · intro c hn e he
      refine hP.other c ?_ e he
      rw [List.getElem?_eq_none_iff] at hn ⊢
      simp only [List.length_append] at hn
      omega

/-- What holds of fresh connections and is kept by every move of a connection holds of each
connection of a network that any path leads to. -/
theorem Path.each (h : Path {} w)
    (fresh : ∀ {c x j}, x.IsFresh → (∀ e ∈ j, e.concerns c = false) → P c x j)
    (step : ∀ {c x y es j}, P c x j → ConnMove c x es y → P c y (es ++ j)) : w.Each P := by
  have hw : w.Housed ∧ w.Each P := by
    refine h.keeps (P := fun w => w.Housed ∧ w.Each P) (fun hw hm => ?_) (fun q hw => ?_)
      (fun hw _ _ _ => ?_) ?_
    · exact ⟨hm.housed hw.1, hm.each fresh step hw.1 hw.2⟩
    · exact ⟨hw.1, hw.2.conn, hw.2.other⟩
    · exact ⟨hw.1.givenUp _ _, (View.givenUp _ _).each step hw.2⟩
    · exact ⟨by simp [Housed], by simp, by simp⟩
  exact hw.2

/-- What a connection sees of a view goes on from what it saw before. -/
theorem View.conn {u : Network} {c : Nat} {x : Connection} (h : View w w')
    (hw : ∃ y es, w.conns[c]? = some y ∧ w.journal = es ++ u.journal ∧ ConnMoves c x es y) :
    ∃ y es, w'.conns[c]? = some y ∧ w'.journal = es ++ u.journal ∧ ConnMoves c x es y := by
  obtain ⟨y, es, hy, hj, hs⟩ := hw
  obtain ⟨fs, hj', hv⟩ := h
  rcases hv c with ⟨y', z, hy', hz, hs'⟩ | ⟨hn, -, -⟩
  · obtain rfl := Option.some.inj (hy.symm.trans hy')
    exact ⟨z, fs ++ es, hz, by rw [hj', hj, List.append_assoc], hs.trans hs'⟩
  · cases hy.symm.trans hn

/-- What a connection sees of a path is a series of its own moves. -/
theorem Path.conn (h : Path w w') (hw : w.Housed) {c : Nat} {x : Connection}
    (hx : w.conns[c]? = some x) :
    ∃ y es, w'.conns[c]? = some y ∧ w'.journal = es ++ w.journal ∧ ConnMoves c x es y := by
  have hw' : w'.Housed ∧ ∃ y es, w'.conns[c]? = some y ∧ w'.journal = es ++ w.journal ∧
      ConnMoves c x es y := by
    refine h.keeps (P := fun v => v.Housed ∧ ∃ y es, v.conns[c]? = some y ∧
      v.journal = es ++ w.journal ∧ ConnMoves c x es y) (fun hv hm => ?_) (fun q hv => hv)
      (fun hv _ _ _ => ⟨hv.1.givenUp _ _, (View.givenUp _ _).conn hv.2⟩) ?_
    · refine ⟨hm.housed hv.1, ?_⟩
      rcases hm.view hv.1 with hview | ⟨xs, -, rfl⟩
      · exact hview.conn hv.2
      · obtain ⟨-, y, es, hy, hj, hs⟩ := hv
        exact ⟨y, es, getElem?_append_of_some hy xs, hj, hs⟩
    · exact ⟨hw, x, [], hx, rfl, .refl x⟩
  exact hw'.2

/-- Nothing in the journal is ever taken back. -/
theorem Path.journal (h : Path w w') (hw : w.Housed) :
    ∃ es, w'.journal = es ++ w.journal := by
  have hw' : w'.Housed ∧ ∃ es, w'.journal = es ++ w.journal := by
    refine h.keeps (P := fun v => v.Housed ∧ ∃ es, v.journal = es ++ w.journal) (fun hv hm => ?_)
      (fun q hv => hv) (fun hv _ _ _ => ⟨hv.1.givenUp _ _, ?_⟩) ⟨hw, [], rfl⟩
    · refine ⟨hm.housed hv.1, ?_⟩
      obtain ⟨hv, es, hj⟩ := hv
      rcases hm.view hv with ⟨fs, hj', -⟩ | ⟨xs, -, rfl⟩
      · exact ⟨fs ++ es, by rw [hj', hj, List.append_assoc]⟩
      · exact ⟨es, hj⟩
    · obtain ⟨-, es, hj⟩ := hv
      obtain ⟨fs, hj', -⟩ := View.givenUp _ _
      exact ⟨fs ++ es, by rw [hj', hj, List.append_assoc]⟩
  exact hw'.2

end each

end Network

end Parley

import Parley.Proofs.Binding
import Parley.Proofs.Causes
import Parley.Proofs.Dispatchers
import Parley.Proofs.Replies

/-!
# One connection at a time

A dispatcher may serve any number of connections, but one after the other: it is bound to a new one
only when the link of the one before is closed. A connection that asks too early is refused, and
refusing it undoes all that was done until then, so that it may ask again as if it never had.

- `Network.Tied`: who was ever bound to a dispatcher keeps it; every move keeps this.
- `Network.act_connect`: what connecting comes to.
- `Network.serves_one`: the whole.
-/

namespace Parley

/-- A connection that was connected keeps its dispatcher. -/
theorem ConnMove.dispatcher {c : Nat} {x y : Connection} {es : List Event} {j : Journal} {l : Link}
    (h : ConnMove c x es y) (hS : Connection.Sound c x j) (hl : x.link = some l) :
    y.dispatcher = x.dispatcher := by
  have offer : ∀ (z : Connection) (m : Message), (z.offer m).dispatcher = z.dispatcher := by
    intro z m
    rcases z.offer_cases c m with ⟨k, -, -, -, hz⟩ | ⟨-, -, hz⟩ <;> rw [hz]
  cases h with
  | turn h => cases h <;> rfl
  | start hp d => cases hl.symm.trans (hS.unused_of_disconnected hp).link
  | notify method params => exact offer x _
  | forget id =>
    rcases x.forget_cases c id with ⟨k, n, z, -, -, rfl, -, hx⟩ | ⟨-, -, hx⟩
    · rw [hx]
      exact offer _ _
    · rw [hx]
  | refuse h => exact offer x _
  | reply r id outcome => exact offer x _
  | _ => rfl

theorem ConnMoves.dispatcher {c : Nat} {x y : Connection} {es : List Event} {j : Journal} {l : Link}
    (h : ConnMoves c x es y) (hS : Connection.Sound c x j) (hl : x.link = some l) :
    y.dispatcher = x.dispatcher := by
  induction h with
  | refl => rfl
  | @tail y z es fs h hm ih =>
    obtain ⟨k, hk⟩ := h.link hl
    have hy : Connection.Sound c y (es ++ j) := h.keeps (fun hS hm => hS.step hm) hS
    exact (hm.dispatcher hy hk).trans ih

namespace Network

variable {w w' : Network} {c d : Nat}

/-! ## Who was ever bound -/

/-- Whether a connection is or was connected to a dispatcher. -/
def ServedBy (w : Network) (c d : Nat) : Prop :=
  ∃ x, w.conns[c]? = some x ∧ x.dispatcher = some d ∧ x.link ≠ none

/-- Who was connected to a dispatcher was so for ever after. -/
theorem ServedBy.path (h : w.ServedBy c d) (hw : w.Ordered) (hp : Path w w') : w'.ServedBy c d := by
  obtain ⟨x, hx, hd, hn⟩ := h
  obtain ⟨l, hl⟩ := Option.ne_none_iff_exists'.mp hn
  obtain ⟨y, es, hy, -, hm⟩ := hp.conn hw.housed hx
  obtain ⟨k, hk⟩ := hm.link hl
  refine ⟨y, hy, ?_, by rw [hk]; rintro ⟨⟩⟩
  rw [hm.dispatcher (hw.sound.conn c x hx) hl, hd]

/-- The connections that dispatchers are bound to are or were connected to them. -/
def Tied (w : Network) : Prop :=
  ∀ (d : Nat) (y : Dispatcher) (c : Nat), w.dispatchers[d]? = some y → y.bound = some c →
    w.ServedBy c d

theorem Tied.step (h : w.Tied) (hw : w.Ordered) (hm : Move w w') : w'.Tied := by
  have old : ∀ {d c : Nat}, w.ServedBy c d → w'.ServedBy c d := fun h =>
    h.path hw (.of_moves (.single hm))
  intro d y c hy hb
  rcases hm.unmoved with hu | ⟨a, e, x, hx, -, -, -, rfl⟩
  · rcases hm.dispatcher hy with ⟨x, hx, -⟩ | rfl
    · obtain ⟨y', hy', hb'⟩ := hu.dispatcher d x hx
      obtain rfl := Option.some.inj (hy.symm.trans hy')
      exact old (h d x c hx (hb'.symm.trans hb))
    · cases hb
  · change ((w.dispatchers.modify e _)[d]?) = _ at hy
    obtain ⟨z, hz, rfl⟩ := getElem?_modify_eq_some hy
    split at hb
    · next he =>
      obtain rfl := Option.some.inj hb
      refine ⟨x.start e, ?_, congrArg some he, by rintro ⟨⟩⟩
      show (w.modifyConn a fun x => x.start e).conns[a]? = _
      rw [getElem?_modifyConn_self, hx, Option.map_some]
    · exact old (h d z c hz hb)

theorem Path.tied (h : Path {} w) : w.Tied := by
  induction h with
  | refl => exact fun _ _ _ hy => by cases hy
  | move h hm ih => exact ih.step h.ordered hm
  | pop h hq ih => exact ih
  | @drop v k x h hk hx ho ih =>
    intro d y c hy hb
    exact (ih d y c hy hb).path h.ordered ((Path.refl v).drop hk hx ho)

/-! ## Connecting -/

/-- What connecting comes to. -/
theorem act_connect (h : Reachable w) (c d : Nat) : w.act (.connect c d) =
    match (w.conns[c]?).map Connection.phase with
    | some .disconnected =>
      if (w.dispatchers[d]?).isSome ∧ w.boundConn? d = none then (.done, w.joined c d)
      else (.refused .alreadyConnected, w)
    | some .closed => (.refused .connectionClosed, w)
    | _ => (.refused .alreadyConnected, w) := by
  have hact : w.act (.connect c d) = (.ofOutcome (w.connect c d).1, (w.connect c d).2) := rfl
  rw [hact]
  split
  · -- A connection that has not been used has its stream, so the slot of the dispatcher decides.
    next hp =>
    obtain ⟨x, hx, hp⟩ := Option.map_eq_some_iff.mp hp
    have hs := ((h.sound.conn c x hx).unused_of_disconnected hp).hasStream hp
    rw [connect_of_disconnected hx hp, if_pos hs]
    split
    · next hb =>
      rw [if_neg]
      · rfl
      · rintro ⟨hd, hn⟩
        simp [hn, Option.isSome_iff_ne_none.mp hd] at hb
    · next hb =>
      rw [if_pos]
      · rfl
      · simpa [Option.isSome_iff_ne_none] using hb
  · -- In the other phases it is refused before the slot is looked at.
    next hp => rw [connect, hp]; rfl
  · next hp hp' =>
    rw [connect]
    split
    · next h => exact absurd h hp
    · next h => exact absurd h hp'
    · rfl

/-- When the end of the connection begins that a dispatcher is bound to, the dispatcher is free. -/
theorem boundConn?_disconnect (h : Reachable w) {b : Nat} (hb : w.boundConn? d = some b)
    (flush : Bool) : (w.disconnect b flush).boundConn? d = none ∧
      (w.disconnect b flush).dispatchers = w.dispatchers ∧
      ∀ c, c ≠ b → (w.disconnect b flush).conns[c]? = w.conns[c]? := by
  obtain ⟨⟨y, hy, hyb⟩, x, hx, ho⟩ := boundConn?_eq_some.mp hb
  obtain ⟨l, hl⟩ := (h.sound.conn b x hx).live_of_isOpen ho
  rw [disconnect_of_connected hx (by rw [hl.phase]; rintro ⟨⟩)]
  obtain ⟨⟨q, -, he⟩, -⟩ := teardown_of_live hx (by rw [hl.phase]; rfl) flush
  have hcut : (w.modifyConn b fun x => x.cut flush).conns[b]? = some (x.cut flush) := by
    rw [getElem?_modifyConn_self, hx, Option.map_some]
  rw [he]
  refine ⟨?_, rfl, fun c hc => getElem?_modifyConn_ne w _ hc⟩
  show Option.filter _ ((w.dispatchers[d]?).bind _) = none
  rw [hy, Option.bind_some, hyb]
  have hopen : (x.cut flush).isOpen = false := by
    simp [Connection.isOpen, Connection.cut, hl.link, Link.close]
  show Option.filter (fun c => ((w.modifyConn b fun x => x.cut flush).conns[c]?).any _) _ = _
  rw [Option.filter_some, hcut, Option.any_some, hopen]
  rfl

/-- Two open connections never have the same dispatcher. -/
theorem Bound.eq_of_open (h : w.Bound) {a b : Nat} {x y : Connection} (hx : w.conns[a]? = some x)
    (hy : w.conns[b]? = some y) (hxo : x.isOpen = true) (hyo : y.isOpen = true)
    (hxd : x.dispatcher = some d) (hyd : y.dispatcher = some d) : a = b := by
  obtain ⟨e, he, hb⟩ := h.boundConn? hx hxo
  obtain ⟨f, hf, hb'⟩ := h.boundConn? hy hyo
  obtain rfl := Option.some.inj (he.symm.trans hxd)
  obtain rfl := Option.some.inj (hf.symm.trans hyd)
  exact Option.some.inj (hb.symm.trans hb')

/-- Who was ever connected to a dispatcher is closed, unless the dispatcher is bound to it now. -/
theorem Bound.closed_of_servedBy (h : w.Bound) (hs : w.ServedBy c d) {z : Dispatcher}
    (hz : w.dispatchers[d]? = some z) (hb : z.bound ≠ some c) :
    ∃ x, w.conns[c]? = some x ∧ x.dispatcher = some d ∧ x.isOpen = false := by
  obtain ⟨x, hx, hd, -⟩ := hs
  refine ⟨x, hx, hd, Bool.eq_false_iff.mpr fun ho => hb ?_⟩
  obtain ⟨e, y, he, hy, hbound⟩ := h c x hx ho
  obtain rfl := Option.some.inj (he.symm.trans hd)
  obtain rfl := Option.some.inj (hy.symm.trans hz)
  exact hbound

/-- Connecting works, or nothing changes; whether it works depends on the phase of the connection
and on whether the dispatcher is bound to an open link. -/
theorem connect_iff (h : Reachable w) (c d : Nat) :
    ((w.conns[c]?).map Connection.phase = some .disconnected ∧
        (w.dispatchers[d]?).isSome = true ∧ w.boundConn? d = none ∧
        w.act (.connect c d) = (.done, w.joined c d)) ∨
      (¬((w.conns[c]?).map Connection.phase = some .disconnected ∧
          (w.dispatchers[d]?).isSome = true ∧ w.boundConn? d = none) ∧
        w.act (.connect c d) = (.refused (if (w.conns[c]?).map Connection.phase = some .closed
          then .connectionClosed else .alreadyConnected), w)) := by
  rw [act_connect h]
  split
  · next hp =>
    by_cases hb : (w.dispatchers[d]?).isSome = true ∧ w.boundConn? d = none
    · exact .inl ⟨hp, hb.1, hb.2, by rw [if_pos hb]⟩
    · refine .inr ⟨fun hn => hb hn.2, ?_⟩
      rw [if_neg hb, if_neg (by rw [hp]; rintro ⟨⟩)]
  · next hp =>
    refine .inr ⟨fun hn => ?_, by rw [if_pos hp]⟩
    cases hp.symm.trans hn.1
  · next hp hp' => exact .inr ⟨fun hn => hp hn.1, by rw [if_neg hp']⟩

/-- Who was refused because the dispatcher was busy may ask again when the other connection has
begun to end. -/
theorem connect_again (h : Reachable w) {b : Nat} (flush : Bool)
    (hp : (w.conns[c]?).map Connection.phase = some .disconnected) (hb : w.boundConn? d = some b) :
    w.act (.connect c d) = (.refused .alreadyConnected, w) ∧
      ((run w [.connect c d, .disconnect b flush]).act (.connect c d)).1 = .done := by
  have hrefused : w.act (.connect c d) = (.refused .alreadyConnected, w) := by
    rw [act_connect h, hp]
    exact if_neg fun hn => by cases hb.symm.trans hn.2
  obtain ⟨⟨y, hy, -⟩, x, hx, ho⟩ := boundConn?_eq_some.mp hb
  -- The one that is bound is open, so it is another one.
  have hne : c ≠ b := by
    rintro rfl
    obtain ⟨l, hl⟩ := (h.sound.conn c x hx).live_of_isOpen ho
    rw [hx, Option.map_some, hl.phase] at hp
    cases hp
  obtain ⟨hfree, hds, hcs⟩ := boundConn?_disconnect h hb flush
  have hrun : run w [.connect c d, .disconnect b flush] = w.disconnect b flush := by
    show ((w.act (.connect c d)).2.act (.disconnect b flush)).2 = _
    rw [hrefused]
    rfl
  have hphase : ((w.disconnect b flush).conns[c]?).map Connection.phase = some .disconnected := by
    rw [hcs c hne, hp]
  have hthere : ((w.disconnect b flush).dispatchers[d]?).isSome = true := by rw [hds, hy]; rfl
  have hv : Reachable (w.disconnect b flush) := h.run [.disconnect b flush]
  refine ⟨hrefused, ?_⟩
  rw [hrun]
  rcases connect_iff hv c d with ⟨-, -, -, ha⟩ | ⟨hn, -⟩
  · rw [ha]
  · exact absurd ⟨hphase, hthere, hfree⟩ hn

/-- **A dispatcher serves one connection at a time, and refusing one leaves no trace.** Two open
connections never have the same dispatcher, and of all connections that a dispatcher was ever bound
to only the one that it is bound to now can be open. Connecting works exactly if the connection was
never connected and its dispatcher is bound to no open link. If it is refused, because the
connection is closed or because it or the dispatcher is connected already, nothing has changed, and
whatever follows goes as if nobody had asked. So a connection that was refused because its
dispatcher was busy may ask again when the other one has begun to end. -/
theorem serves_one (h : Reachable w) :
    (∀ (a b d : Nat) (x y : Connection), w.conns[a]? = some x → w.conns[b]? = some y →
      x.isOpen = true → y.isOpen = true → x.dispatcher = some d → y.dispatcher = some d → a = b) ∧
    (∀ (u : Network) (actions : List Action) (d c : Nat) (y z : Dispatcher), Reachable u →
      w = run u actions → u.dispatchers[d]? = some y → y.bound = some c →
      w.dispatchers[d]? = some z → z.bound ≠ some c →
      ∃ x, w.conns[c]? = some x ∧ x.dispatcher = some d ∧ x.isOpen = false) ∧
    ∀ c d : Nat,
      ((w.act (.connect c d)).1 = .done ↔
        (w.conns[c]?).map Connection.phase = some .disconnected ∧
          (w.dispatchers[d]?).isSome = true ∧ w.boundConn? d = none) ∧
      ((w.act (.connect c d)).1 = .done → (w.act (.connect c d)).2 = w.joined c d) ∧
      (∀ e, (w.act (.connect c d)).1 = .refused e →
        (e = if (w.conns[c]?).map Connection.phase = some .closed then .connectionClosed
          else .alreadyConnected) ∧
        (w.act (.connect c d)).2 = w ∧
        ∀ actions, run w (.connect c d :: actions) = run w actions) ∧
      ∀ b flush, (w.conns[c]?).map Connection.phase = some .disconnected →
        w.boundConn? d = some b →
        (w.act (.connect c d)).1 = .refused .alreadyConnected ∧
          ((run w [.connect c d, .disconnect b flush]).act (.connect c d)).1 = .done := by
  have hbound := h.path.bound
  refine ⟨fun a b d x y hx hy => hbound.eq_of_open hx hy, ?_, fun c d => ⟨?_, ?_, ?_, ?_⟩⟩
  · -- A connection leaves the slot only by being closed.
    rintro u actions d c y z hu rfl hy hb hz hne
    have hs := (hu.path.tied d y c hy hb).path hu.path.ordered (path_run u actions)
    exact hbound.closed_of_servedBy hs hz hne
  · rcases connect_iff h c d with ⟨hp, hd, hn, ha⟩ | ⟨hn, ha⟩
    · rw [ha]
      exact iff_of_true rfl ⟨hp, hd, hn⟩
    · rw [ha]
      exact iff_of_false (by rintro ⟨⟩) hn
  · intro hdone
    rcases connect_iff h c d with ⟨-, -, -, ha⟩ | ⟨-, ha⟩
    · rw [ha]
    · rw [ha] at hdone
      cases hdone
  · intro e he
    rcases connect_iff h c d with ⟨-, -, -, ha⟩ | ⟨-, ha⟩
    · rw [ha] at he
      cases he
    · have hw : (w.act (.connect c d)).2 = w := by rw [ha]
      rw [ha] at he
      refine ⟨(Answer.refused.inj he).symm, hw, fun actions => ?_⟩
      show run (w.act (.connect c d)).2 actions = _
      rw [hw]
  · -- After a teardown of the former connection the slot is open again.
    intro b flush hp hb
    obtain ⟨hr, hdone⟩ := connect_again h flush hp hb
    exact ⟨by rw [hr], hdone⟩

/-- A second connection asks for a dispatcher that is busy, and asks again when it is free. -/
theorem serves_one_busy :
    let w := run {} [.openScript {}, .openScript {}, .openDispatcher, .connect 0 0, .settle 9]
    (w.act (.connect 1 0)).1 = .refused .alreadyConnected ∧ (w.act (.connect 1 0)).2 = w ∧
      ((run w [.connect 1 0, .disconnect 0 true]).act (.connect 1 0)).1 = .done := by
  intro w
  have h : Reachable w := ⟨_, rfl⟩
  have hp : (w.conns[1]?).map Connection.phase = some .disconnected := by decide +kernel
  have hb : w.boundConn? 0 = some 0 := by decide +kernel
  obtain ⟨-, -, hconnect⟩ := serves_one h
  obtain ⟨-, -, hrefused, hagain⟩ := hconnect 1 0
  obtain ⟨hr, hdone⟩ := hagain 0 true hp hb
  exact ⟨hr, (hrefused _ hr).2.1, hdone⟩

end Network

end Parley

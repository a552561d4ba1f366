import Parley.Proofs.Attention
import Parley.Proofs.Delivery
import Parley.Proofs.Fate

/-!
# Every call is over once

Four things race to end a call, over a table that replies, the end of the connection, the clock and
whoever waits share. Whichever comes first decides, who waits is told what it means and never told
again, and he is told as soon as everybody before him had his turn.

- `Network.Issued`: the request of a call was sent, and its time is the one that was configured.
- `Network.Strands`: only who has to share an identifier loses it.
- `Network.InOrder`: what every run keeps about calls and tables.
- `Network.resolves_once`: the whole.
-/

namespace Parley

/-- No move changes the settings of a connection. -/
theorem ConnMove.config {c : Nat} {x y : Connection} {es : List Event} (h : ConnMove c x es y) :
    y.config = x.config := by
  have offer : ∀ (x : Connection) (m : Message), (x.offer m).config = x.config := by
    intro x m
    rcases x.offer_cases c m with ⟨l, -, -, -, hx⟩ | ⟨-, -, hx⟩
    · rw [hx]
    · rw [hx]
  cases h with
  | turn h => cases h <;> rfl
  | notify method params => exact offer x _
  | refuse h => exact offer x _
  | reply r id outcome => exact offer x _
  | forget id =>
    rcases x.forget_cases c id with ⟨l, k, y, -, -, rfl, -, hx⟩ | ⟨-, -, hx⟩
    · rw [hx, offer]
    · rw [hx]
  | _ => rfl

theorem ConnMoves.config {c : Nat} {x y : Connection} {es : List Event} (h : ConnMoves c x es y) :
    y.config = x.config := by
  induction h with
  | refl => rfl
  | tail _ hm ih => exact hm.config.trans ih

namespace Network

variable {w w' : Network}

/-! ## The clock goes on -/

theorem Move.clock_le (h : Move w w') : w.clock ≤ w'.clock := by
  cases h with
  | advance ht => exact ht
  | finish =>
    obtain ⟨-, ht, -, -⟩ := concluded_rest w _ _ _
    exact Nat.le_of_eq ht.symm
  | _ => exact Nat.le_refl _

/-! ## Calls that are new -/

/-- A call after a move was there before, or it has begun just now. -/
theorem Move.call_cases (h : Move w w') {k : Nat} {y : Call} (hy : w'.calls[k]? = some y) :
    (∃ x, w.calls[k]? = some x ∧ y = { x with state := y.state }) ∨
    (k = w.calls.length ∧ ∃ (x : Call) (l l' : Link) (params : Json), w.link? x.conn = some l ∧
      x.deadline = w.deadline x.conn ∧ y = { x with state := y.state } ∧
      View (w.begun x l' params) w') := by
  cases hx : w.calls[k]? with
  | some x =>
    obtain ⟨y', hy', hl⟩ := h.tends.call hx
    obtain rfl := Option.some.inj (hy.symm.trans hy')
    exact .inl ⟨x, rfl, hl.same⟩
  | none =>
    refine .inr ?_
    have absent : w'.calls.length = w.calls.length → False := fun hl => by
      have h1 := (List.getElem?_eq_some_iff.mp hy).1
      have h2 := List.getElem?_eq_none_iff.mp hx
      omega
    cases h with
    | @call l l' x params hl hs hn hxs hwt ht hd =>
      rcases getElem?_append_one hy with hy | ⟨hk, rfl⟩
      · cases hx.symm.trans hy
      · exact ⟨hk, y, l, l', params, hl, ht, rfl, .refl _⟩
    | @forward l l' x params r z hl hs hn hxs hwt ht hd =>
      rcases getElem?_append_one hy with hy | ⟨hk, rfl⟩
      · cases hx.symm.trans hy
      · exact ⟨hk, y, l, l', params, hl, ht, rfl, .same rfl [] rfl (by simp)⟩
    | @callLate l l' x params hl hs hn hxs ht hd =>
      rw [show ((w.begun x l' params).expired w.calls.length x).calls = w.calls ++ [_] from
        modify_append_one w.calls x _] at hy
      rcases getElem?_append_one hy with hy | ⟨hk, rfl⟩
      · cases hx.symm.trans hy
      · exact ⟨hk, x, l, l', params, hl, ht, rfl, .expired w.calls.length x⟩
    | learn => exact (absent (List.length_modify ..)).elim
    | lose => exact (absent (List.length_modify ..)).elim
    | expire => exact (absent (List.length_modify ..)).elim
    | answer => exact (absent (List.length_modify ..)).elim
    | strand => exact (absent (List.length_modify ..)).elim
    | cut => exact (absent (length_resolved _ _ _)).elim
    | finish =>
      obtain ⟨hc, -⟩ := concluded_rest w _ _ _
      exact (absent (by rw [hc])).elim
    | _ => exact (absent rfl).elim

/-! ## What was sent -/

/-- The request of a call was accepted by its connection, and the call has as much time as the
connection gives, counted from some time that is over. -/
structure Issued (w : Network) (x : Call) : Prop where
  request : ∃ params, .request x.id x.method params ∈ w.journal.accepted x.conn
  deadline : ∃ (y : Connection) (t : Nat), w.conns[x.conn]? = some y ∧ t ≤ w.clock ∧
    x.deadline = y.config.requestTimeout.map (deadlineAfter t)

namespace Issued

variable {x : Call}

theorem view (h : w.Issued x) (hv : View w w') (ht : w.clock ≤ w'.clock) : w'.Issued x := by
  obtain ⟨params, hm⟩ := h.request
  obtain ⟨y, t, hy, hle, hd⟩ := h.deadline
  obtain ⟨es, hj, hv⟩ := hv
  refine ⟨⟨params, ?_⟩, ?_⟩
  · rw [hj, Journal.accepted_append]
    exact List.mem_append_left _ hm
  · rcases hv x.conn with ⟨y', z, hy', hz, hs⟩ | ⟨hn, -, -⟩
    · obtain rfl := Option.some.inj (hy.symm.trans hy')
      exact ⟨z, t, hz, Nat.le_trans hle ht, by rw [hs.config, hd]⟩
    · cases hy.symm.trans hn

theorem move (h : w.Issued x) (hw : w.Housed) (hm : Move w w') : w'.Issued x := by
  rcases hm.view hw with hv | ⟨xs, -, rfl⟩
  · exact h.view hv hm.clock_le
  · obtain ⟨y, t, hy, hle, hd⟩ := h.deadline
    exact ⟨h.request, y, t, getElem?_append_of_some hy xs, hle, hd⟩

/-- A call that has just begun. -/
theorem begun {l l' : Link} {params : Json} (hl : w.link? x.conn = some l)
    (ht : x.deadline = w.deadline x.conn) : (w.begun x l' params).Issued x := by
  obtain ⟨y, hy, -⟩ := link?_eq_some.mp hl
  refine ⟨⟨params, ?_⟩, { y with link := some l' }, w.clock, ?_, Nat.le_refl _, ?_⟩
  · simp [Network.begun, Journal.accepted]
  · simp [Network.begun, hy]
  · rw [ht, Network.deadline, hy, Option.bind_some]

end Issued

/-- The requests of all calls were sent. -/
def AllIssued (w : Network) : Prop := ∀ (k : Nat) (x : Call), w.calls[k]? = some x → w.Issued x

namespace AllIssued

theorem move (h : w.AllIssued) (hw : w.Housed) (hm : Move w w') : w'.AllIssued := by
  intro k y hy
  rcases hm.call_cases hy with ⟨x, hx, hs⟩ | ⟨-, x, l, l', params, hl, ht, hs, hv⟩
  · rw [hs]
    have hi := (h k x hx).move hw hm
    exact ⟨hi.request, hi.deadline⟩
  · have hi : (w.begun x l' params).Issued x := .begun hl ht
    have hi := hi.view hv hm.clock_le
    rw [hs]
    exact ⟨hi.request, hi.deadline⟩

theorem givenUp (h : w.AllIssued) (k : Nat) (x : Call) : (w.givenUp k x).AllIssued := by
  intro n y hy
  obtain ⟨z, hz, rfl⟩ := getElem?_modify_eq_some hy
  have hi := (h n z hz).view (View.givenUp k x) (Nat.le_refl _)
  split
  · exact ⟨hi.request, hi.deadline⟩
  · exact hi

end AllIssued

/-! ## Identifiers that are given again -/

/-- Only calls of a connection that has given all its identifiers lose theirs to other calls. -/
def Strands (w : Network) : Prop :=
  ∀ (k c : Nat) (id : Id), w.keys[k]? = some (c, id) → w.journal.fate k c id = .stranded →
    UInt64.size ≤ w.started c

/-- What is new takes its identifier only away from a call that has to share it. -/
theorem Deal.strands (hB : w.Booked) (h : Deal w w') :
    ∃ es, w'.journal = es ++ w.journal ∧ ∀ k, .stranded k ∈ es →
      ∃ c id, w.keys[k]? = some (c, id) ∧ UInt64.size ≤ w.started c := by
  have quiet : ∀ {es : List Event} {k : Nat}, (∀ e ∈ es, e.settles = false) → .stranded k ∉ es :=
    fun he hm => by cases he _ hm
  cases h with
  | quiet hc ht hk hj he => exact ⟨_, hj, fun k hm => absurd hm (quiet he)⟩
  | @stray c x r => exact ⟨[.received c (.reply r)], rfl, by simp⟩
  | @begin l l' x params =>
    exact ⟨[.accepted x.conn (.request x.id x.method params), .started w.calls.length], rfl,
      by simp⟩
  | @learn k x r => exact ⟨[.ended k (x.outcomeOf r)], rfl, by simp⟩
  | @lose k x => exact ⟨[.ended k (.error .connectionClosed)], rfl, by simp⟩
  | @expire k x =>
    obtain ⟨es, hj, he⟩ := settles_withdraw w x.conn x.id
    refine ⟨.ended k (.error (.timedOut x.method)) :: es, ?_, by simp [quiet he]⟩
    rw [List.cons_append, ← hj]
    rfl
  | @drop k x =>
    obtain ⟨es, hj, he⟩ := settles_withdraw w x.conn x.id
    refine ⟨.dropped k :: es, ?_, by simp [quiet he]⟩
    rw [List.cons_append, ← hj]
    rfl
  | @remove c k x id l l' s e hx hl ha hr =>
    refine ⟨[e], rfl, fun n hm => ?_⟩
    obtain ⟨-, z, hz, hzc, hzi, -⟩ := hB.removed hx hl ha
    cases hr with
    | answer => cases List.mem_singleton.mp hm
    | strand hr =>
      obtain rfl : n = k := by simpa using hm
      rw [← hzc, ← hzi] at hr
      exact ⟨z.conn, z.id, by simp [Network.keys, Call.key, hz], hB.size_le hz hr⟩
  | @cut c x flush => exact ⟨[.cut c flush], rfl, by simp⟩

/-- A call that has lost its identifier lost it before, or by what is new. -/
theorem fate_stranded {k c : Nat} {id : Id} {es j : Journal}
    (h : Journal.fate k c id (es ++ j) = .stranded) :
    j.fate k c id = .stranded ∨ .stranded k ∈ es := by
  induction es with
  | nil => exact .inl h
  | cons e es ih =>
    rw [List.cons_append, Journal.fate] at h
    by_cases hs : Journal.fate k c id (es ++ j) = .stranded
    · exact (ih hs).imp_right (List.mem_cons_of_mem _)
    · refine .inr ?_
      generalize Journal.fate k c id (es ++ j) = f at h hs
      cases f with
      | stranded => exact absurd rfl hs
      | unborn =>
        cases e with
        | started => simp only [Fate.after] at h; split at h <;> cases h
        | _ => cases h
      | pending =>
        cases e with
        | stranded n =>
          simp only [Fate.after] at h
          split at h
          · next hn => simp [hn]
          · cases h
        | received d m =>
          cases m with
          | reply r =>
            simp only [Fate.after] at h
            split at h <;> cases h
          | _ => cases h
        | cut | ended | dropped =>
          simp only [Fate.after] at h
          split at h <;> cases h
        | _ => cases h
      | _ => cases h

theorem Strands.step (h : w.Strands) (hU : w.Unbegun) (hB : w.Booked) (hd : Deal w w') :
    w'.Strands := by
  intro k c id hk hf
  obtain ⟨es, hj, hes⟩ := hd.strands hB
  have hold : ∀ p, w.keys[k]? = some p → w'.keys[k]? = some p := fun p hp => by
    rcases hd.keys with hk | ⟨x, l, params, -, hk⟩
    · rwa [hk]
    · rw [hk]
      exact getElem?_append_of_some hp _
  rw [hj] at hf
  refine Nat.le_trans ?_ (hd.started_le c)
  rcases fate_stranded hf with hs | hm
  · -- Something was decided about the call, so it has begun.
    cases hp : w.keys[k]? with
    | none =>
      have hn := List.getElem?_eq_none_iff.mp hp
      rw [keys, List.length_map] at hn
      rw [(hU k hn).1] at hs
      cases hs
    | some p =>
      obtain rfl := Option.some.inj ((hold p hp).symm.trans hk)
      exact h k c id hp hs
  · obtain ⟨c', id', hp, hle⟩ := hes k hm
    obtain ⟨rfl, -⟩ := Prod.mk.inj (Option.some.inj ((hold _ hp).symm.trans hk))
    exact hle

/-! ## What every run keeps -/

/-- Calls, tables and the journal fit together. -/
structure InOrder (w : Network) : Prop where
  booked : w.Booked
  unbegun : w.Unbegun
  calls : ∀ c, w.Awaited c ∧ w.Settled c
  strands : w.Strands

namespace InOrder

theorem step (h : w.InOrder) (hd : Deal w w') : w'.InOrder := by
  refine ⟨h.booked.step hd, h.unbegun.step hd, fun c => ?_, h.strands.step h.unbegun h.booked hd⟩
  obtain ⟨hA, hS⟩ := h.calls c
  exact ⟨hA.step h.booked hd, hS.step h.unbegun h.booked hA hd⟩

theorem start : ({} : Network).InOrder where
  booked :=
    { entry := fun hm => absurd hm List.not_mem_nil
      nodup := fun _ => List.nodup_nil
      given := fun _ => rfl
      counter := fun _ => rfl }
  unbegun := fun _ _ => ⟨fun _ _ => rfl, rfl⟩
  calls := by
    intro _
    constructor <;> intro _ _ hx <;> cases hx
  strands := fun _ _ _ hx => by cases hx

end InOrder

/-- Everything that is said of calls holds along every path. -/
theorem Path.inOrder (h : Path {} w) : w.InOrder ∧ w.AllIssued := by
  have hw : w.Housed ∧ w.Each Connection.Sound ∧ w.InOrder ∧ w.AllIssued := by
    refine h.keeps
      (P := fun w => w.Housed ∧ w.Each Connection.Sound ∧ w.InOrder ∧ w.AllIssued)
      (fun hv hm => ?_) (fun {v} q hv => ?_) (fun hv hk hx ho => ?_) ?_
    · obtain ⟨hh, hs, ho, hi⟩ := hv
      refine ⟨hm.housed hh, ?_, (hm.deals hs).keeps (fun h hd => h.step hd) ho, hi.move hh hm⟩
      exact hm.each (fun hx hj => .unused (hx.unused hj)) (fun hS hm => hS.step hm) hh hs
    · obtain ⟨hh, hs, ho, hi⟩ := hv
      have hd : Deal v { v with ready := q } := .aside [] rfl rfl (Nat.le_refl _) rfl (by simp)
      refine ⟨hh, ⟨hs.conn, hs.other⟩, ho.step hd, fun k x hx => ?_⟩
      exact ⟨(hi k x hx).request, (hi k x hx).deadline⟩
    · obtain ⟨hh, hs, hc, hi⟩ := hv
      refine ⟨hh.givenUp _ _, ?_, hc.step (.drop hk hx ho), hi.givenUp _ _⟩
      exact (View.givenUp _ _).each (fun hS hm => hS.step hm) hs
    · exact ⟨by simp [Housed], ⟨by simp, by simp⟩, .start, fun k x hx => by cases hx⟩
  exact ⟨hw.2.2.1, hw.2.2.2⟩

/-- So it does in every network that any use leads to. -/
theorem Reachable.inOrder (h : Reachable w) : w.InOrder ∧ w.AllIssued := h.path.inOrder

/-! ## The fate of a call -/

/-- What is decided about a call so far. -/
def fateOf (w : Network) (k : Nat) (x : Call) : Fate := w.journal.fate k x.conn x.id

/-- How far a call is fits its fate. -/
theorem Reachable.fits (h : Reachable w) {k : Nat} {x : Call} (hx : w.calls[k]? = some x) :
    x.Fits w.clock (w.fateOf k x) (w.journal.told k) :=
  (h.inOrder.1.calls x.conn).2 k x hx rfl

/-- What is decided about a call stays decided. -/
theorem fateOf_run (h : Reachable w) {k : Nat} {x : Call}
    (hd : (w.fateOf k x).isDecided = true) (actions : List Action) :
    (run w actions).fateOf k x = w.fateOf k x := by
  obtain ⟨es, hj⟩ := (path_run w actions).journal h.housed
  rw [fateOf, fateOf, hj]
  exact Journal.fate_of_isDecided hd es

/-- A call that is decided, or has lasted too long, is over as soon as every task in the queue has
had its turn. -/
theorem Reachable.told_soon (h : Reachable w) {k : Nat} {x : Call} (hx : w.calls[k]? = some x)
    (hd : (w.fateOf k x).isDecided = true ∨ x.isOverdue w.clock = true) (hs : x.state ≠ .dropped)
    {n : Nat} (hq : w.ready.length ≤ n) :
    ∃ o, (settle n w).journal.told k = [o] ∧ x.Learns ((settle n w).fateOf k x) o := by
  have hover : ∃ y, (settle n w).calls[k]? = some y ∧ y.isOver = true := by
    have urgent := fun hu => h.tidy.over_of_urgent hx hu hq
    have hf := h.fits hx
    generalize w.fateOf k x = f, w.journal.told k = os at hf hd
    cases hf with
    | waiting hw =>
      refine urgent ?_
      rcases hd with hd | hd
      · cases hd
      · simpa [Call.isUrgent, hw] using hd
    | answered hw => exact urgent (by simp [Call.isUrgent, hw])
    | closed hw => exact urgent (by simp [Call.isUrgent, hw])
    | told hw hf ht =>
      obtain ⟨y, hy, hp⟩ := pressing_settle n hx
      exact ⟨y, hy, hp.isOver (by simp [Call.isOver, hw])⟩
    | dropped hw => exact absurd hw hs
  obtain ⟨y, hy, ho⟩ := hover
  obtain ⟨y', hy', hp⟩ := pressing_settle n hx
  obtain rfl := Option.some.inj (hy.symm.trans hy')
  have hr : Reachable (settle n w) := h.run [.settle n]
  have hc : y.conn = x.conn := by rw [hp.same]
  have hi : y.id = x.id := by rw [hp.same]
  have hf := hr.fits hy
  rw [fateOf, hc, hi, ← fateOf] at hf
  have hm : ∀ f : Fate, f.outcome y = f.outcome x := fun f => by
    rw [hp.same]
    cases f <;> rfl
  generalize (settle n w).fateOf k x = f, (settle n w).journal.told k = os at hf ⊢
  cases hf with
  | told hw hf ht => exact ⟨_, rfl, Fate.outcome_eq_some_iff.mp ((hm _).symm.trans hf)⟩
  | dropped hw => exact absurd (hp.kept hw) hs
  | _ hw => simp [Call.isOver, hw] at ho

end Network

end Parley

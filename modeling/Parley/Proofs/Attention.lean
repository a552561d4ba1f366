import Parley.Proofs.Running

/-!
# Who waits is woken

A call is urgent when its waiter has something to see: the reply is here, the connection went away,
or the time is over. The waiter of an urgent call stands in the queue, and the queue is first in,
first out; so after as many turns as there are tasks in the queue, the call is over.

- `Call.isUrgent`: whether the waiter of a call has something to see.
- `Network.Minded`: every call that is not over has a waiter that waits for it.
- `Network.Attended`: the waiters of urgent calls stand in the queue.
- `Network.Tidy.step`: both are kept by every turn.
- `Network.Tidy.settle`: an urgent call is over soon.
-/

namespace Parley

/-- Whether the waiter of a call has something to see at a time. -/
def Call.isUrgent (x : Call) (t : Nat) : Bool :=
  match x.state with
  | .answered _ | .closed => true
  | .waiting => x.isOverdue t
  | .ended _ | .dropped => false

/-- A call that something urgent awaits is not over. -/
theorem Call.isOver_of_isUrgent {x : Call} {t : Nat} (h : x.isUrgent t = true) :
    x.isOver = false := by
  rw [Call.isUrgent] at h
  rw [Call.isOver]
  cases hs : x.state <;> simp_all

namespace Network

variable {w w' : Network}

/-! ## What becomes of calls -/

/-- How a call goes on from one network to another: only its state changes, what is over stays so,
and what is urgent stays so until it is over. When it becomes urgent its waiter is woken. -/
structure Later (w w' : Network) (x y : Call) : Prop where
  same : y = { x with state := y.state }
  isOver : x.isOver = true → y.isOver = true
  /-- It is not given up. -/
  kept : y.state = .dropped → x.state = .dropped
  urgent : x.isUrgent w.clock = true → y.isUrgent w'.clock = true ∨ y.isOver = true
  woken : y.isUrgent w'.clock = true → x.isUrgent w.clock = true ∨ y.waiter ∈ w'.ready

theorem Later.refl (x : Call) (h : w'.clock = w.clock) : Later w w' x x :=
  ⟨rfl, id, id, fun hu => .inl (by rwa [h]), fun hu => .inl (by rwa [← h])⟩

/-- A call that has ended now. -/
theorem Later.of_ended {x : Call} (o : Except CallError Json) :
    Later w w' x { x with state := .ended o } :=
  ⟨rfl, fun _ => rfl, (by rintro ⟨⟩), fun _ => .inr rfl, (by rintro ⟨⟩)⟩

/-- A call that waited and is resolved, and whose waiter is woken. -/
theorem Later.of_resolve {x : Call} {s : CallState} (ht : w'.clock = w.clock)
    (hs : (∃ r, s = .answered r) ∨ s = .closed)
    (hw : x.isWaiting = true → x.waiter ∈ w'.ready) : Later w w' x (x.resolve s) := by
  rw [Call.resolve]
  split
  · next h =>
    refine ⟨rfl, fun ho => ?_, fun hd => ?_, fun _ => .inl ?_, fun _ => .inr (hw h)⟩
    · rw [Call.isWaiting_iff] at h
      simp [Call.isOver, h] at ho
    · rcases hs with ⟨r, rfl⟩ | rfl <;> cases hd
    · rcases hs with ⟨r, rfl⟩ | rfl <;> rfl
  · exact .refl x ht

/-- What a move does to calls: those that are there go on, and a new one is not urgent. -/
structure Tends (w w' : Network) : Prop where
  ready : w.ready <+: w'.ready
  call : ∀ {k : Nat} {x : Call}, w.calls[k]? = some x →
    ∃ y, w'.calls[k]? = some y ∧ Later w w' x y
  fresh : ∀ {k : Nat} {y : Call}, w'.calls[k]? = some y → w.calls[k]? = none →
    y.isUrgent w'.clock = false

/-- What leaves calls and the clock alone. -/
theorem Tends.of_calls (hc : w'.calls = w.calls) (ht : w'.clock = w.clock)
    (hr : w.ready <+: w'.ready) : Tends w w' := by
  refine ⟨hr, fun {k x} hx => ⟨x, by rwa [hc], .refl x ht⟩, fun {k y} hy hn => ?_⟩
  rw [hc, hn] at hy
  cases hy

/-- One call changes. -/
theorem Tends.of_modify {n : Nat} (f : Call → Call) (hc : w'.calls = w.calls.modify n f)
    (ht : w'.clock = w.clock) (hr : w.ready <+: w'.ready)
    (hf : ∀ x, w.calls[n]? = some x → Later w w' x (f x)) : Tends w w' := by
  refine ⟨hr, fun {k x} hx => ?_, fun {k y} hy hn => ?_⟩
  · rw [hc, List.getElem?_modify, hx]
    by_cases h : n = k
    · subst h
      exact ⟨f x, by simp, hf x hx⟩
    · exact ⟨x, by simp [h], .refl x ht⟩
  · rw [hc, List.getElem?_modify, hn] at hy
    cases hy

/-- A call begins. -/
theorem Tends.of_begun {x : Call} (hc : w'.calls = w.calls ++ [x]) (ht : w'.clock = w.clock)
    (hr : w'.ready = w.ready) (hx : x.isUrgent w.clock = false) : Tends w w' := by
  refine ⟨hr ▸ List.prefix_rfl, fun {k y} hy => ⟨y, ?_, .refl y ht⟩, fun {k y} hy hn => ?_⟩
  · rw [hc]
    exact getElem?_append_of_some hy _
  · rw [hc] at hy
    rcases getElem?_append_one hy with hy | ⟨-, rfl⟩
    · cases hn.symm.trans hy
    · rwa [ht]

/-- Every move tends to the calls: whoever has something to learn is in the queue. -/
theorem Move.tends (h : Move w w') : Tends w w' := by
  cases h with
  | rouse hq => exact .of_calls rfl rfl hq
  | @advance t q ht hq hw =>
    refine ⟨hq, fun {k x} hx => ⟨x, hx, rfl, id, id, fun hu => .inl ?_, fun hu => ?_⟩,
      fun {k y} hy hn =>
      by cases hn.symm.trans hy⟩
    · -- As time goes by, deadlines come: a call is urgent then that was not, and those who wait for
      -- it are woken.
      cases hs : x.state with
      | waiting =>
        simp only [Call.isUrgent, hs] at hu ⊢
        obtain ⟨d, hd, hle⟩ := (Option.any_eq_true _ _).mp hu
        refine (Option.any_eq_true _ _).mpr ⟨d, hd, ?_⟩
        exact decide_eq_true (Nat.le_trans (of_decide_eq_true hle) ht)
      | _ => simp_all [Call.isUrgent]
    · cases hs : x.state with
      | waiting =>
        simp only [Call.isUrgent, hs] at hu
        exact .inr (hw k x hx (Call.isWaiting_iff.mpr hs) hu)
      | _ => exact .inl (by simp_all [Call.isUrgent])
  | @call l l' x params hl hs hn hx hw ht hd =>
    exact .of_begun rfl rfl rfl (by simpa [Call.isUrgent, hx] using hd)
  | @forward l l' x params r y hl hs hn hx hw ht hd =>
    exact .of_begun rfl rfl rfl (by simpa [Call.isUrgent, hx] using hd)
  -- A call that begins after its own deadline is over at once.
  | @callLate l l' x params hl hs hn hx ht hd =>
    refine .of_begun (x := { x with state := .ended (.error (.timedOut x.method)) }) ?_ rfl rfl rfl
    exact modify_append_one w.calls x _
  | @learn k x r hk hx => exact .of_modify _ rfl rfl List.prefix_rfl fun x _ => .of_ended _
  | @lose k x hk hx => exact .of_modify _ rfl rfl List.prefix_rfl fun x _ => .of_ended _
  | @expire k x hk hx hd ho => exact .of_modify _ rfl rfl List.prefix_rfl fun x _ => .of_ended _
  | answer hx hr hl ha hq hw =>
    exact .of_modify _ rfl rfl hq fun x hk => .of_resolve rfl (.inl ⟨_, rfl⟩) (hw x hk)
  | strand hx hl ha hr hq hw =>
    exact .of_modify _ rfl rfl hq fun x hk => .of_resolve rfl (.inr rfl) (hw x hk)
  | finish =>
    obtain ⟨hc, ht, hr, -⟩ := concluded_rest w _ _ _
    exact .of_calls hc ht (hr ▸ List.prefix_rfl)
  -- All who waited at the connection are resolved and woken; the others are as they were.
  | @cut c x q flush hx hp hq hw =>
    have hk := getElem?_severed w c x flush
    refine ⟨hq, fun {k y} hy => ?_, fun {k y} hy hn => ?_⟩
    · refine ⟨_, (hk k).trans (by rw [hy]; rfl), ?_⟩
      split
      · next hm => exact .of_resolve rfl (.inr rfl) (hw k hm y hy)
      · exact .refl y rfl
    · have := (hk k).symm.trans hy
      rw [hn] at this
      cases this
  | _ => exact .of_calls rfl rfl List.prefix_rfl

/-! ## Who waits for a call -/

/-- Every call that is not over is awaited from outside, or by a run that waits for it. -/
def Minded (w : Network) : Prop :=
  ∀ (k : Nat) (x : Call), w.calls[k]? = some x → x.isOver = false →
    x.waiter = .caller k ∨
      ∃ r y, x.waiter = .handler r ∧ w.runs[r]? = some y ∧ y.stage = .calling k

namespace Minded

/-- The runs that wait for a call wait on as long as it is not over. -/
theorem change (hM : w.Minded) (ht : Tends w w')
    (hn : ∀ (k : Nat) (x : Call), w'.calls[k]? = some x → w.calls[k]? = none → x.isOver = false →
      x.waiter = .caller k ∨
        ∃ r y, x.waiter = .handler r ∧ w'.runs[r]? = some y ∧ y.stage = .calling k)
    (hr : ∀ (r k : Nat) (x : Call) (y : Run), w.runs[r]? = some y → y.stage = .calling k →
      w.calls[k]? = some x → x.isOver = false →
      ∃ z, w'.runs[r]? = some z ∧ z.stage = .calling k) : w'.Minded := by
  intro k y hy ho
  cases hx : w.calls[k]? with
  | none => exact hn k y hy hx ho
  -- The call was there before, and its caller minded it then.
  | some x =>
    obtain ⟨y', hy', hl⟩ := ht.call hx
    obtain rfl := Option.some.inj (hy.symm.trans hy')
    have hxo : x.isOver = false := by
      cases hx' : x.isOver with
      | false => rfl
      | true => cases ho.symm.trans (hl.isOver hx')
    have hw : y.waiter = x.waiter := by rw [hl.same]
    rw [hw]
    rcases hM k x hx hxo with h | ⟨r, z, hz, hrun, hs⟩
    · exact .inl h
    · obtain ⟨z', hz', hs'⟩ := hr r k x z hrun hs hx hxo
      -- It is minded by the same run, which goes on waiting for it.
      exact .inr ⟨r, z', hz, hz', hs'⟩

/-- A run that waits for a call stays as it is when another run changes. -/
theorem run_modify {f : Run → Run} {r n k : Nat} {y : Run} (hy : w.runs[n]? = some y)
    (hs : y.stage = .calling k) (hf : r = n → (f y).stage = .calling k) :
    ∃ z, (w.runs.modify r f)[n]? = some z ∧ z.stage = .calling k := by
  rw [List.getElem?_modify, hy]
  by_cases h : r = n
  · exact ⟨f y, by simp [h], hf h⟩
  · exact ⟨y, by simp [h], hs⟩

/-- Every move keeps every call minded. -/
theorem step (hM : w.Minded) (h : Move w w') : w'.Minded := by
  have ht := h.tends
  -- Most moves begin no call.
  have old : w'.calls.length = w.calls.length → ∀ (k : Nat) (x : Call), w'.calls[k]? = some x →
      w.calls[k]? = none → x.isOver = false → x.waiter = .caller k ∨
        ∃ r y, x.waiter = .handler r ∧ w'.runs[r]? = some y ∧ y.stage = .calling k :=
    fun hl k x hx hn => by
      have h1 := (List.getElem?_eq_some_iff.mp hx).1
      have h2 := List.getElem?_eq_none_iff.mp hn
      omega
  have kept : w'.runs = w.runs → ∀ (r k : Nat) (x : Call) (y : Run), w.runs[r]? = some y →
      y.stage = .calling k → w.calls[k]? = some x → x.isOver = false →
      ∃ z, w'.runs[r]? = some z ∧ z.stage = .calling k :=
    fun hr r k x y hy hs _ _ => ⟨y, by rwa [hr], hs⟩
  cases h with
  | @call l l' x params hl hs hn hx hw =>
    refine hM.change ht (fun k y hy hn ho => ?_) (kept rfl)
    rcases getElem?_append_one hy with hy | ⟨rfl, rfl⟩
    · cases hn.symm.trans hy
    · exact .inl hw
  | @forward l l' x params r z hl hs hl' hx hw htd hd hz hf hm =>
    have hz' : (w.runs.modify r fun y => { y with stage := .calling w.calls.length })[r]? =
        some { z with stage := .calling w.calls.length } := by simp [hz]
    refine hM.change ht (fun k y hy hn ho => ?_) fun n k x y hy hs _ _ => ?_
    · rcases getElem?_append_one hy with hy | ⟨rfl, rfl⟩
      · cases hn.symm.trans hy
      · exact .inr ⟨r, _, hw, hz', rfl⟩
    · refine run_modify hy hs fun h => ?_
      subst h
      obtain rfl := Option.some.inj (hz.symm.trans hy)
      cases hf.symm.trans hs
  | @callLate l l' x params hl hs hl' hx htd hd =>
    refine hM.change ht (fun k y hy hn ho => ?_) (kept rfl)
    rw [show ((w.begun x l' params).expired w.calls.length x).calls = w.calls ++ [_] from
      modify_append_one w.calls x _] at hy
    rcases getElem?_append_one hy with hy | ⟨rfl, rfl⟩
    · cases hn.symm.trans hy
    · cases ho
  | @spawn c x y hx =>
    exact hM.change ht (old rfl) fun r k x z hz hs _ _ => ⟨z, getElem?_append_of_some hz _, hs⟩
  | @serve c x y d id hx =>
    exact hM.change ht (old rfl) fun r k x z hz hs _ _ => ⟨z, getElem?_append_of_some hz _, hs⟩
  | @wait r z s hz hf =>
    refine hM.change ht (old rfl) fun n k x y hy hs _ _ => run_modify hy hs fun h => ?_
    subst h
    obtain rfl := Option.some.inj (hz.symm.trans hy)
    cases hf.symm.trans hs
  | @receive c d x m =>
    refine hM.change ht (old rfl) fun n k x y hy hs _ _ => ?_
    show ∃ z, (w.runsAfter (w.cancels d m))[n]? = some z ∧ _
    cases w.cancels d m with
    | none => exact ⟨y, hy, hs⟩
    | some r => exact run_modify hy hs fun _ => hs
  | @finish r z outcome hz hf he hk =>
    obtain ⟨hc, -, -, hr⟩ := concluded_rest w r z outcome
    refine hM.change ht (old (by rw [hc])) fun n k x y hy hs hx ho => ?_
    rw [hr]
    refine run_modify hy hs fun h => ?_
    -- A run that ends does not wait for a call that is not over.
    subst h
    obtain rfl := Option.some.inj (hz.symm.trans hy)
    cases ho.symm.trans (hk k x hs hx)
  | learn => exact hM.change ht (old (List.length_modify ..)) (kept rfl)
  | lose => exact hM.change ht (old (List.length_modify ..)) (kept rfl)
  | expire => exact hM.change ht (old (List.length_modify ..)) (kept rfl)
  | answer => exact hM.change ht (old (List.length_modify ..)) (kept rfl)
  | strand => exact hM.change ht (old (List.length_modify ..)) (kept rfl)
  | cut => exact hM.change ht (old (length_resolved _ _ _)) (kept rfl)
  | _ => exact hM.change ht (old rfl) (kept rfl)

end Minded

/-! ## Urgent calls -/

/-- The waiters of urgent calls stand in the queue, but maybe for one call. -/
def AttendedBut (e : Option Nat) (w : Network) : Prop :=
  ∀ (k : Nat) (x : Call), w.calls[k]? = some x → x.isUrgent w.clock = true →
    e = some k ∨ x.waiter ∈ w.ready

/-- Every row of moves keeps the calls attended, but for the one excepted. -/
theorem AttendedBut.moves {e : Option Nat} (h : w.AttendedBut e) (hm : Moves w w') :
    w'.AttendedBut e := by
  induction hm with
  | refl => exact h
  | tail _ hm ih =>
    have ht := hm.tends
    intro k y hy hu
    cases hx : (Network.calls _)[k]? with
    | none => cases hu.symm.trans (ht.fresh hy hx)
    | some x =>
      obtain ⟨y', hy', hl⟩ := ht.call hx
      obtain rfl := Option.some.inj (hy.symm.trans hy')
      rcases hl.woken hu with hu | hu
      · have hw : y.waiter = x.waiter := by rw [hl.same]
        rw [hw]
        exact (ih k x hx hu).imp_right fun hr => ht.ready.subset hr
      · exact .inr hu

/-- Calls are minded along every row of moves. -/
theorem Minded.moves (h : w.Minded) (hm : Moves w w') : w'.Minded := by
  induction hm with
  | refl => exact h
  | tail _ hm ih => exact ih.step hm

/-- Nothing has been overlooked. -/
structure Tidy (w : Network) : Prop where
  minded : w.Minded
  attended : w.AttendedBut none

/-- Order is kept along every row of moves. -/
theorem Tidy.moves (h : w.Tidy) (hm : Moves w w') : w'.Tidy :=
  ⟨h.minded.moves hm, h.attended.moves hm⟩

/-! ## The turn of a waiter -/

/-- The call that a task looks after in its turn. -/
def subject (w : Network) : Task → Option Nat
  | .caller k => some k
  | .handler r => (w.runs[r]?).bind fun y =>
    match y.stage with
    | .calling k => some k
    | _ => none
  | .reader _ | .writer _ => none

/-- A waiter looks after the call that it waits for. -/
theorem Minded.subject (h : w.Minded) {k : Nat} {x : Call} (hk : w.calls[k]? = some x)
    (ho : x.isOver = false) : w.subject x.waiter = some k := by
  rcases h k x hk ho with hw | ⟨r, y, hw, hr, hs⟩
  · rw [hw]
    rfl
  · rw [hw, Network.subject, hr, Option.bind_some, hs]

/-- A call that was looked after is not urgent. -/
theorem isUrgent_checkCall {k : Nat} {x : Call} (hx : (w.checkCall k).calls[k]? = some x) :
    x.isUrgent (w.checkCall k).clock = false := by
  have ended : ∀ {v : Network} {o : Except CallError Json} {y : Call},
      (v.endCall k o).calls[k]? = some y → ∀ t, y.isUrgent t = false := by
    intro v o y hy t
    simp only [endCall, emit, modifyCall, List.getElem?_modify] at hy
    obtain ⟨z, -, rfl⟩ := Option.map_eq_some_iff.mp hy
    simp [Call.isUrgent]
  -- By the state of the call: there is nothing left to learn of it, or its end has just been told.
  cases hk : w.calls[k]? with
  | none =>
    rw [checkCall, hk, hk] at hx
    cases hx
  | some y =>
    cases hy : y.state with
    | waiting =>
      cases hd : y.isOverdue w.clock with
      | false =>
        rw [checkCall_of_early hk hy hd] at hx ⊢
        obtain rfl := Option.some.inj (hk.symm.trans hx)
        simp [Call.isUrgent, hy, hd]
      | true =>
        obtain ⟨u, -, -, q, -, he⟩ := checkCall_of_overdue hk hy hd
        rw [he] at hx
        exact ended hx _
    | answered r =>
      rw [checkCall_of_answered hk hy] at hx
      exact ended hx _
    | closed =>
      rw [checkCall_of_closed hk hy] at hx
      exact ended hx _
    | ended o =>
      rw [checkCall_of_isOver hk (by simp [Call.isOver, hy])] at hx
      obtain rfl := Option.some.inj (hk.symm.trans hx)
      simp [Call.isUrgent, hy]
    | dropped =>
      rw [checkCall_of_isOver hk (by simp [Call.isOver, hy])] at hx
      obtain rfl := Option.some.inj (hk.symm.trans hx)
      simp [Call.isUrgent, hy]

/-- A handler that finishes does nothing to the calls. -/
theorem calls_finish (w : Network) (r : Nat) (outcome : Except Failure Json) :
    (w.finish r outcome).calls = w.calls ∧ (w.finish r outcome).clock = w.clock := by
  cases hr : w.runs[r]? with
  | none =>
    rw [finish, hr]
    exact ⟨rfl, rfl⟩
  | some y =>
    obtain ⟨q, -, he⟩ := roused_finish hr outcome
    obtain ⟨hc, ht, -, -⟩ := concluded_rest w r y outcome
    rw [he]
    exact ⟨hc, ht⟩

/-- A run that goes on with its own call changes no call but that one. -/
theorem calls_checkOwnCall (w : Network) (r : Nat) (y : Run) (k : Nat) :
    (w.checkOwnCall r y k).calls = (w.checkCall k).calls ∧
      (w.checkOwnCall r y k).clock = (w.checkCall k).clock := by
  simp only [checkOwnCall]
  split
  · exact calls_finish ((w.checkCall k).report _) r _
  · exact ⟨rfl, rfl⟩

/-- After the turn of a task the call that it looks after is not urgent. -/
theorem isUrgent_perform {t : Task} {k : Nat} {x : Call} (ht : w.subject t = some k)
    (hx : (w.perform t).calls[k]? = some x) : x.isUrgent (w.perform t).clock = false := by
  cases t with
  | reader c => cases ht
  | writer c => cases ht
  | caller n =>
    obtain rfl := Option.some.inj ht
    exact isUrgent_checkCall hx
  | handler r =>
    obtain ⟨y, hy, hs⟩ := Option.bind_eq_some_iff.mp ht
    split at hs
    · next n hn =>
      obtain rfl := Option.some.inj hs
      have hp : w.perform (.handler r) = w.checkOwnCall r y n := by
        simp only [perform, runHandler, hy, hn]
      obtain ⟨hc, hcl⟩ := calls_checkOwnCall w r y n
      rw [hp, hc] at hx
      rw [hp, hcl]
      exact isUrgent_checkCall hx
    · cases hs

/-- The turn of a task keeps everything in order. -/
theorem Tidy.step (h : w.Tidy) (hs : w.step = some w') : w'.Tidy := by
  obtain ⟨t, q, hq, rfl⟩ := step_eq_some.mp hs
  have hm := moves_perform { w with ready := q } t
  have hpop : AttendedBut (w.subject t) { w with ready := q } := by
    intro k x hx hu
    have hr := (h.attended k x hx hu).resolve_left (by rintro ⟨⟩)
    rw [hq] at hr
    rcases List.mem_cons.mp hr with hw | hr
    · rw [← hw]
      exact .inl (h.minded.subject hx (Call.isOver_of_isUrgent hu))
    · exact .inr hr
  refine ⟨Minded.moves (w := { w with ready := q }) h.minded hm, fun k x hx hu => ?_⟩
  rcases hpop.moves hm k x hx hu with he | hr
  · cases hu.symm.trans (isUrgent_perform (w := { w with ready := q }) he hx)
  · exact .inr hr

/-- When the tasks have had their turns, everything is in order. -/
theorem Tidy.settled (h : w.Tidy) (n : Nat) : (settle n w).Tidy :=
  settle_induction h (fun hs hv => hv.step hs) n

/-- A call that is given up is awaited no more. -/
theorem Tidy.givenUp (h : w.Tidy) (k : Nat) (x : Call) : (w.givenUp k x).Tidy := by
  have call : ∀ {n : Nat} {y : Call}, (w.givenUp k x).calls[n]? = some y → y.isOver = false →
      w.calls[n]? = some y := by
    intro n y hy ho
    obtain ⟨z, hz, he⟩ := getElem?_modify_eq_some hy
    split at he
    · rw [he] at ho
      cases ho
    · rwa [he]
  exact ⟨fun n y hy ho => h.minded n y (call hy ho) ho,
    fun n y hy hu => h.attended n y (call hy (Call.isOver_of_isUrgent hu)) hu⟩

/-- Whatever is done from outside leaves everything in order. -/
theorem Tidy.act (h : w.Tidy) (a : Action) : (w.act a).2.Tidy := by
  cases a with
  | settle n => exact h.settled n
  | dropCall k =>
    show (w.dropCall k).Tidy
    rcases dropCall_cases w k with hd | ⟨u, x, hu, -, -, -, hr⟩
    · rwa [hd]
    · exact ((h.moves hu.moves).givenUp k x).moves hr.moves
  | _ => exact h.moves (moves_act w (by rintro _ ⟨⟩) (by rintro _ ⟨⟩))

/-- Everything is in order in every network that can be reached. -/
theorem Reachable.tidy (h : Reachable w) : w.Tidy := by
  have h0 : ({} : Network).Tidy := by
    constructor <;> intro _ _ h <;> cases h
  exact h.induction h0 fun a _ hv => hv.act a

/-! ## After enough turns -/

/-- How a call goes on in a series of moves: it is over for good, or stays urgent until then. -/
structure Pressing (w w' : Network) (x y : Call) : Prop where
  same : y = { x with state := y.state }
  isOver : x.isOver = true → y.isOver = true
  kept : y.state = .dropped → x.state = .dropped
  urgent : x.isUrgent w.clock = true → y.isUrgent w'.clock = true ∨ y.isOver = true

theorem Pressing.refl (w : Network) (x : Call) : Pressing w w x x := ⟨rfl, id, id, .inl⟩

theorem Pressing.trans {u v w : Network} {x y z : Call} (h : Pressing u v x y)
    (h' : Pressing v w y z) : Pressing u w x z := by
  refine ⟨by rw [h'.same, h.same], fun hx => h'.isOver (h.isOver hx), fun hz => h.kept (h'.kept hz),
    fun hx => ?_⟩
  rcases h.urgent hx with hy | hy
  · exact h'.urgent hy
  · exact .inr (h'.isOver hy)

/-- Whatever happens, the waiters of a call are in the queue when it has something for them. -/
theorem Moves.pressing (hm : Moves w w') {k : Nat} {x : Call} (hk : w.calls[k]? = some x) :
    w.ready <+: w'.ready ∧ ∃ y, w'.calls[k]? = some y ∧ Pressing w w' x y := by
  induction hm with
  | refl => exact ⟨List.prefix_rfl, x, hk, .refl _ x⟩
  | tail _ hm ih =>
    obtain ⟨hr, y, hy, hp⟩ := ih
    have ht := hm.tends
    obtain ⟨z, hz, hl⟩ := ht.call hy
    exact ⟨hr.trans ht.ready, z, hz, hp.trans ⟨hl.same, hl.isOver, hl.kept, hl.urgent⟩⟩

/-- A call that is there goes on in the turns that follow. -/
theorem pressing_settle (n : Nat) {k : Nat} {x : Call} (hk : w.calls[k]? = some x) :
    ∃ y, (settle n w).calls[k]? = some y ∧ Pressing w (settle n w) x y := by
  refine settle_induction (P := fun v => ∃ y, v.calls[k]? = some y ∧ Pressing w v x y)
    ⟨x, hk, .refl w x⟩ ?_ n
  rintro u v hs ⟨y, hy, hp⟩
  obtain ⟨t, q, -, rfl⟩ := step_eq_some.mp hs
  obtain ⟨-, z, hz, hq⟩ :=
    (moves_perform { u with ready := q } t).pressing (w := { u with ready := q }) hy
  exact ⟨z, hz, hp.trans ⟨hq.same, hq.isOver, hq.kept, hq.urgent⟩⟩

/-- The waiter of an urgent call has its turn after those that stand before it, and then the call is
over. -/
theorem Tidy.over_of_position (h : w.Tidy) {k : Nat} {x : Call} (hk : w.calls[k]? = some x)
    (hu : x.isUrgent w.clock = true) {a b : List Task} (hq : w.ready = a ++ x.waiter :: b)
    {n : Nat} (hn : a.length < n) :
    ∃ y, (settle n w).calls[k]? = some y ∧ y.isOver = true := by
  induction a generalizing w x b n with
  | nil =>
    obtain ⟨n, rfl⟩ : ∃ m, n = m + 1 := ⟨n - 1, by simp at hn; omega⟩
    rw [settle, step_of_ready hq]
    obtain ⟨-, y, hy, hp⟩ := (moves_perform { w with ready := b } x.waiter).pressing
      (w := { w with ready := b }) hk
    -- What was looked after is not urgent any more, so it is over.
    have hsub : ({ w with ready := b } : Network).subject x.waiter = some k :=
      h.minded.subject hk (Call.isOver_of_isUrgent hu)
    have hyo : y.isOver = true := by
      rcases hp.urgent hu with hyu | hyo
      · cases hyu.symm.trans (isUrgent_perform hsub hy)
      · exact hyo
    obtain ⟨z, hz, hp⟩ := pressing_settle n hy
    exact ⟨z, hz, hp.isOver hyo⟩
  | cons t a ih =>
    obtain ⟨n, rfl⟩ : ∃ m, n = m + 1 := ⟨n - 1, by simp at hn; omega⟩
    have hs : w.step = some ({ w with ready := a ++ x.waiter :: b }.perform t) :=
      step_of_ready hq
    rw [settle, hs]
    obtain ⟨hr, y, hy, hp⟩ :=
      (moves_perform { w with ready := a ++ x.waiter :: b } t).pressing
        (w := { w with ready := a ++ x.waiter :: b }) hk
    rcases hp.urgent hu with hyu | hyo
    · obtain ⟨b', hb'⟩ := hr
      have hw : y.waiter = x.waiter := by rw [hp.same]
      refine ih (h.step hs) hy hyu (b := b ++ b') ?_ (by simpa using hn)
      rw [← hb', hw]
      simp
    · obtain ⟨z, hz, hp⟩ := pressing_settle n hy
      exact ⟨z, hz, hp.isOver hyo⟩

/-- **An urgent call is over soon**: as soon as every task in the queue has had its turn. -/
theorem Tidy.over_of_urgent (h : w.Tidy) {k : Nat} {x : Call} (hk : w.calls[k]? = some x)
    (hu : x.isUrgent w.clock = true) {n : Nat} (hn : w.ready.length ≤ n) :
    ∃ y, (settle n w).calls[k]? = some y ∧ y.isOver = true := by
  have hr := (h.attended k x hk hu).resolve_left (by rintro ⟨⟩)
  obtain ⟨a, b, hq⟩ := List.append_of_mem hr
  refine h.over_of_position hk hu hq ?_
  rw [hq] at hn
  simp at hn
  omega

end Network

end Parley

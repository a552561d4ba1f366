import Parley.Proofs.Cancelling
import Parley.Proofs.Dispatchers
import Parley.Proofs.Exclusive

/-!
# Why a request is cancelled

The handler of a request is told to stop for one of two reasons: the end of its connection has
begun, or the peer of this connection has cancelled the request while it was unanswered. A
dispatcher finds the run to be cancelled in one table for all connections that it ever served, under
the identifier alone. What a later peer may find there of an earlier one was told to stop before,
since a dispatcher serves the next connection only after the end of the one before has begun.

- `Journal.Warrants`: the causes.
- `Network.Tabulated`: what a dispatcher knows of requests under way goes on; every move keeps this.
- `Network.Justified`: every request that is cancelled has a cause; every move keeps this.
- `Network.cancelled_for_cause`: the whole.
-/

namespace Parley

namespace Journal

/-- A cause to cancel a request that came in over a connection and that a run serves. -/
inductive Warrants (c : Nat) (id : Id) (r : Nat) (j : Journal) : Prop where
  /-- The end of the connection has begun. -/
  | cut (h : j.cuts c ≠ [])
  /-- A cancellation came in over the same connection that names the request, while it was
  unanswered. -/
  | revoked (es i : Journal) (params : Json)
      (hj : j = es ++ .received c (.notification cancelMethod params) :: i)
      (hp : params.index "id" = id.toJson) (hr : r ∈ i.unanswered c id)

theorem Warrants.append {c r : Nat} {id : Id} {j : Journal} (h : j.Warrants c id r)
    (es : List Event) : Warrants c id r (es ++ j) := by
  cases h with
  | cut h =>
    refine .cut ?_
    rw [cuts_append]
    exact List.append_ne_nil_of_left_ne_nil h _
  | revoked fs i params hj hp hr =>
    exact .revoked (es ++ fs) i params (by rw [hj, List.append_assoc]) hp hr

end Journal

namespace Network

variable {w w' : Network}

/-! ## The table of requests under way -/

/-- The runs that dispatchers know serve the requests under whose identifiers they are known, and
have not ended. -/
def Tabulated (w : Network) : Prop :=
  ∀ (d : Nat) (id : Id) (r : Nat), w.held d id = some r →
    ∃ y, w.runs[r]? = some y ∧ y.id = some id ∧ y.dispatcher = d ∧ y.outcome? = none

theorem Tabulated.step (h : w.Tabulated) (hd : Duty w w') : w'.Tabulated := by
  -- Where no status has changed and no table, there is nothing to do.
  have same : w'.runs.map Run.status = w.runs.map Run.status → w'.held = w.held → w'.Tabulated := by
    intro hr hheld d id r hk
    rw [hheld] at hk
    obtain ⟨y, hy, hid, hdisp, hn⟩ := h d id r hk
    obtain ⟨y', hy', ho, hn'⟩ := run_of_status hr.symm hy
    exact ⟨y', hy', (congrArg (·.id) ho).symm.trans hid,
      (congrArg (·.dispatcher) ho).symm.trans hdisp, hn' hn⟩
  -- A run that is new has the next number.
  have add : ∀ {z : Run} {d : Nat} {id : Id} {r : Nat}, w'.runs = w.runs ++ [z] →
      w.held d id = some r →
      ∃ y, w'.runs[r]? = some y ∧ y.id = some id ∧ y.dispatcher = d ∧ y.outcome? = none := by
    intro z d id r hr hk
    obtain ⟨y, hy, hrest⟩ := h d id r hk
    exact ⟨y, by rw [hr]; exact getElem?_append_of_some hy _, hrest⟩
  cases hd with
  | quiet es hr hj he hheld => exact same hr hheld
  | heed hx hread hb hr hj hheld => exact same (hr ▸ map_status_runsAfter w _) hheld
  | spawn hi hs hr hj hheld =>
    intro d id r hk
    rw [hheld] at hk
    exact add hr hk
  | @serve x z i hi hs hr hj hx hread hb hheld =>
    intro d id r hk
    rw [hheld] at hk
    split at hk
    · next he =>
      obtain rfl := Option.some.inj hk
      exact ⟨z, by simp [hr], he.2 ▸ hi, he.1.symm, Run.outcome?_of_fresh hs⟩
    · exact add hr hk
  | refuse c i method params hr hj hheld => exact same (by rw [hr]) hheld
  | @finish n z outcome hz hout hr hj hheld =>
    intro d id r hk
    rw [hheld] at hk
    split at hk
    · cases hk
    · next hne =>
      obtain ⟨y, hy, hid, hdisp, hn⟩ := h d id r hk
      have hnr : n ≠ r := by
        rintro rfl
        obtain rfl := Option.some.inj (hy.symm.trans hz)
        exact hne ⟨hdisp.symm, hid⟩
      exact ⟨y, by rw [hr, List.getElem?_modify, hy]; simp [hnr], hid, hdisp, hn⟩

theorem Path.tabulated (h : Path {} w) : w.Tabulated := by
  induction h with
  | refl => exact fun _ _ _ hk => by cases hk
  | move h hm ih => exact ih.step (hm.duty h.ordered.sound h.ordered.linked)
  | pop h hq ih => exact ih
  | drop h hk hx ho ih => exact ih.step (.givenUp _ _ _)

/-- What stands in the table of a dispatcher are the runs of requests that it serves, and these go
on. -/
theorem Path.inflight (h : Path {} w) {d r : Nat} {x : Dispatcher} {id : Id}
    (hx : w.dispatchers[d]? = some x) (hm : (id, r) ∈ x.inflight) :
    ∃ y, w.runs[r]? = some y ∧ y.id = some id ∧ y.dispatcher = d ∧ y.outcome? = none := by
  refine h.tabulated d id r ?_
  rw [held, hx, Option.bind_some]
  exact lookup_of_nodup_fst (h.keyed x (List.mem_of_getElem? hx)) hm

/-! ## The cause of a cancellation -/

theorem cancels_eq_some {d r : Nat} {m : Message} (h : w.cancels d m = some r) :
    ∃ params, m = .notification cancelMethod params ∧ w.named d params = some r := by
  cases m with
  | notification method params =>
    rw [cancels] at h
    split at h
    · next hm => exact ⟨params, by rw [hm], h⟩
    · cases h
  | _ => cases h

/-- The run of a request that is cancelled was so before, or a cancellation comes in that names
it. -/
theorem Move.cancelled_cases (h : Move w w') {r : Nat} {y' : Run} (hy : w'.runs[r]? = some y')
    (hi : y'.id ≠ none) (hc : y'.cancelled = true) :
    (∃ y, w.runs[r]? = some y ∧ y'.origin = y.origin ∧ y.cancelled = true) ∨
      ∃ c d x params y, w.conns[c]? = some x ∧ x.IsReading ∧ x.dispatcher = some d ∧
        w.named d params = some r ∧ w.runs[r]? = some y ∧ y'.origin = y.origin ∧
        w'.journal = .received c (.notification cancelMethod params) :: w.journal := by
  have modify : ∀ {n : Nat} {f : Run → Run}, w'.runs = w.runs.modify n f →
      (∀ z, (f z).origin = z.origin) → (∀ z, (f z).cancelled = z.cancelled) →
      ∃ y, w.runs[r]? = some y ∧ y'.origin = y.origin ∧ y.cancelled = true := by
    intro n f hr ho hf
    rw [hr] at hy
    obtain ⟨y, hz, rfl⟩ := getElem?_modify_eq_some hy
    refine ⟨y, hz, ?_, ?_⟩
    · split
      · exact ho y
      · rfl
    · split at hc
      · rwa [hf] at hc
      · exact hc
  -- Flags are set by the one move that heeds a message; a run that begins has none.
  cases h with
  | forward => exact .inl (modify rfl (fun _ => rfl) fun _ => rfl)
  | wait => exact .inl (modify rfl (fun _ => rfl) fun _ => rfl)
  | spawn hx hr hk hcc hin hs =>
    rcases getElem?_append_one hy with hy | ⟨-, rfl⟩
    · exact .inl ⟨y', hy, rfl, hc⟩
    · exact absurd hin hi
  | serve hx hr hd hd' hh hcc hin hs hn =>
    rcases getElem?_append_one hy with hy | ⟨-, rfl⟩
    · exact .inl ⟨y', hy, rfl, hc⟩
    · cases hc.symm.trans hn
  | finish =>
    obtain ⟨-, -, -, hr⟩ := concluded_rest w _ _ _
    exact .inl (modify hr (fun _ => rfl) fun _ => rfl)
  | @receive c d x m hx hr hd =>
    change (w.runsAfter (w.cancels d m))[r]? = some y' at hy
    cases hn : w.cancels d m with
    | none =>
      rw [hn] at hy
      exact .inl ⟨y', hy, rfl, hc⟩
    | some n =>
      rw [hn] at hy
      obtain ⟨y, hz, rfl⟩ := getElem?_modify_eq_some hy
      split at hc
      · -- It is this run that the cancellation names.
        next he =>
        subst he
        obtain ⟨params, rfl, hp⟩ := cancels_eq_some hn
        exact .inr ⟨c, d, x, params, y, hx, hr, hd, hp, hz, by rw [if_pos rfl]; rfl, rfl⟩
      · next he => exact .inl ⟨y, hz, by rw [if_neg he], hc⟩
  | _ => exact .inl ⟨y', hy, rfl, hc⟩

/-- Every request that is cancelled has a cause. -/
def Justified (w : Network) : Prop :=
  ∀ (r : Nat) (y : Run) (id : Id), w.runs[r]? = some y → y.id = some id → y.cancelled = true →
    w.journal.Warrants y.conn id r

/-- A cancellation comes in that names a request. -/
theorem warrants_named (ha : w.Aware) (ht : w.Tabulated) {c d r : Nat} {x : Connection}
    {params : Json} {y : Run} {id : Id} (hx : w.conns[c]? = some x) (hread : x.IsReading)
    (hd : x.dispatcher = some d) (hr : w.named d params = some r) (hy : w.runs[r]? = some y)
    (hi : y.id = some id) :
    Journal.Warrants y.conn id r
      (.received c (.notification cancelMethod params) :: w.journal) := by
  obtain ⟨id', hid', hheld⟩ := Option.bind_eq_some_iff.mp hr
  obtain ⟨z, hz, hzi, hzd, hn⟩ := ht d id' r hheld
  obtain rfl := Option.some.inj (hy.symm.trans hz)
  obtain rfl := Option.some.inj (hi.symm.trans hzi)
  obtain ⟨u, l, hu, hl⟩ := ha.ordered.linked y (List.mem_of_getElem? hy)
  cases ho : u.isOpen with
  | false =>
    have hS := ha.ordered.sound.conn _ u hu
    have hcut : w.journal.cuts y.conn ≠ [] := hS.cuts_of_shutdown (hS.shutdown_of_not_open hl ho)
    exact (Journal.Warrants.cut hcut).append [.received c _]
  | true =>
    -- The dispatcher has one open connection only, so the request came in over the same one.
    have hud := ha.placed r y u hy (by rw [hi]; rfl) hu ho
    have hc : y.conn = c :=
      ha.bound.eq_of_open hu hx ho (ha.open_of_isReading hx hread).1 (hzd ▸ hud) hd
    refine .revoked [] w.journal params (by rw [hc]; rfl) (Id.ofJson?_eq_some.mp hid') ?_
    exact ha.ordered.served.mem_unanswered.mpr ⟨y, hy, rfl, hi, hn⟩

theorem Justified.step (h : w.Justified) (ha : w.Aware) (ht : w.Tabulated) (hm : Move w w') :
    w'.Justified := by
  intro r y' id hy' hi hc
  rcases hm.cancelled_cases hy' (by rw [hi]; rintro ⟨⟩) hc with
    ⟨y, hy, ho, hc⟩ | ⟨c, d, x, params, y, hx, hread, hd, hr, hy, ho, hj⟩
  · obtain ⟨es, hj⟩ := (Path.of_moves (.single hm)).journal ha.ordered.housed
    have hconn : y'.conn = y.conn := congrArg (·.conn) ho
    have hid : y'.id = y.id := congrArg (·.id) ho
    rw [hj, hconn]
    exact (h r y id hy (hid ▸ hi) hc).append es
  · have hconn : y'.conn = y.conn := congrArg (·.conn) ho
    have hid : y'.id = y.id := congrArg (·.id) ho
    rw [hj, hconn]
    exact warrants_named ha ht hx hread hd hr hy (hid ▸ hi)

theorem Path.justified (h : Path {} w) : w.Justified := by
  induction h with
  | refl => exact fun r y id hy => by simp at hy
  | move h hm ih => exact ih.step h.aware h.tabulated hm
  | pop h hq ih => exact ih
  | @drop v k x h hk hx ho ih =>
    intro r y id hy hi hc
    obtain ⟨es, hj⟩ := ((Path.refl v).drop hk hx ho).journal h.ordered.housed
    rw [hj]
    exact (ih r y id hy hi hc).append es

/-! ## What a cancellation does -/

theorem cancelRun_rest (w : Network) (r : Nat) :
    (w.cancelRun r).conns = w.conns ∧ (w.cancelRun r).dispatchers = w.dispatchers ∧
      (w.cancelRun r).calls = w.calls := by
  rw [cancelRun]
  split
  · rw [wake_eq]
    exact ⟨rfl, rfl, rfl⟩
  · exact ⟨rfl, rfl, rfl⟩

/-- What a cancellation does that comes in, whatever it names. -/
theorem receiveCancel_rest (w : Network) (d : Nat) (params : Json) :
    (w.receiveCancel d params).conns = w.conns ∧
      (w.receiveCancel d params).dispatchers = w.dispatchers ∧
      (w.receiveCancel d params).calls = w.calls ∧
      (w.receiveCancel d params).runs = w.runsAfter (w.named d params) := by
  rw [receiveCancel, named]
  split
  · next hi =>
    rw [hi]
    exact ⟨rfl, rfl, rfl, rfl⟩
  · next id hi =>
    rw [hi, Option.bind_some, held]
    split
    · next hl =>
      rw [hl]
      exact ⟨rfl, rfl, rfl, rfl⟩
    · next r hl =>
      obtain ⟨hc, hd, hk⟩ := cancelRun_rest w r
      rw [hl]
      exact ⟨hc, hd, hk, runs_cancelRun w r⟩

/-- A cancellation that comes in cancels one request at most, which goes on and whose identifier it
names, and leaves everything else alone. -/
theorem receive_cancel (h : Path {} w) (c : Nat) (params : Json) :
    (w.receive c (.notification cancelMethod params)).conns = w.conns ∧
      (w.receive c (.notification cancelMethod params)).dispatchers = w.dispatchers ∧
      (w.receive c (.notification cancelMethod params)).calls = w.calls ∧
      ((w.receive c (.notification cancelMethod params)).runs = w.runs ∨
        ∃ (r : Nat) (y : Run) (id : Id), w.runs[r]? = some y ∧ y.id = some id ∧
          params.index "id" = id.toJson ∧ y.outcome? = none ∧
          (w.conns[c]?).bind Connection.dispatcher = some y.dispatcher ∧
          (w.receive c (.notification cancelMethod params)).runs =
            w.runs.modify r fun y => { y with cancelled := true }) := by
  rw [receive]
  split
  · exact ⟨rfl, rfl, rfl, .inl rfl⟩
  · next d hd =>
    let v := w.emit (.received c (.notification cancelMethod params))
    have hroute : v.route c d (.notification cancelMethod params) = v.receiveCancel d params := by
      -- A cancellation is not heeded by anything but the table of the dispatcher that serves the
      -- connection.
      rw [route, receiveNotification, if_pos rfl]
    obtain ⟨hconns, hds, hcalls, hruns⟩ := receiveCancel_rest v d params
    rw [hroute]
    refine ⟨hconns, hds, hcalls, ?_⟩
    rw [hruns]
    show w.runsAfter (w.named d params) = w.runs ∨ _
    cases hn : w.named d params with
    | none => exact .inl rfl
    | some r =>
      -- What the table names is a run of this id, of this dispatcher, and not finished.
      obtain ⟨id, hi, hheld⟩ := Option.bind_eq_some_iff.mp hn
      obtain ⟨y, hy, hid, hdisp, hout⟩ := h.tabulated d id r hheld
      refine .inr ⟨r, y, id, hy, hid, Id.ofJson?_eq_some.mp hi, hout, by rw [hd, hdisp], ?_⟩
      show w.runsAfter (w.named d params) = _
      rw [hn]
      rfl

/-- **Why a request is cancelled, and what is known of requests under way.** Whoever serves a
request is told to stop only if the end of its connection has begun, or a cancellation came in over
this connection that names the identifier of the request, while that was unanswered. A cancellation
that comes in cancels one request at most, one that goes on and has the very identifier that it
names, and no connection. What a dispatcher knows under an identifier is one run, which serves a
request with this identifier for it and has not ended; so it knows nothing when there is none. -/
theorem cancelled_for_cause (h : Reachable w) :
    (∀ (r : Nat) (y : Run) (id : Id), w.runs[r]? = some y → y.id = some id →
      w.isCancelled y = true → w.journal.Warrants y.conn id r) ∧
    (∀ (v : Network) (c : Nat) (params : Json), Path w v →
      (v.receive c (.notification cancelMethod params)).conns = v.conns ∧
      ((v.receive c (.notification cancelMethod params)).runs = v.runs ∨
        ∃ (r : Nat) (y : Run) (id : Id), v.runs[r]? = some y ∧ y.id = some id ∧
          params.index "id" = id.toJson ∧ y.outcome? = none ∧
          (v.conns[c]?).bind Connection.dispatcher = some y.dispatcher ∧
          (v.receive c (.notification cancelMethod params)).runs =
            v.runs.modify r fun y => { y with cancelled := true })) ∧
    ∀ (d : Nat) (x : Dispatcher), w.dispatchers[d]? = some x →
      (x.inflight.map Prod.fst).Nodup ∧
      (∀ id r, (id, r) ∈ x.inflight →
        ∃ y, w.runs[r]? = some y ∧ y.id = some id ∧ y.dispatcher = d ∧ y.outcome? = none) ∧
      ((∀ y ∈ w.runs, y.id ≠ none → y.dispatcher = d → y.outcome? ≠ none) → x.inflight = []) := by
  refine ⟨fun r y id hy hi hc => ?_, fun v c params hv => ?_, fun d x hx => ?_⟩
  · -- Cancelled by a message, or because the connection is shut down.
    rw [isCancelled, Bool.or_eq_true] at hc
    rcases hc with hc | hs
    · exact h.path.justified r y id hy hi hc
    · obtain ⟨u, hu, hs⟩ := (Option.any_eq_true _ _).mp hs
      exact .cut ((h.sound.conn _ u hu).cuts_of_shutdown hs)
  · obtain ⟨hconns, -, -, hruns⟩ := receive_cancel (h.path.trans hv) c params
    exact ⟨hconns, hruns⟩
  · refine ⟨h.path.keyed x (List.mem_of_getElem? hx), fun id r hm => h.path.inflight hx hm, ?_⟩
    intro hall
    -- An entry that is left would belong to a run that has not finished.
    refine List.eq_nil_iff_forall_not_mem.mpr ?_
    rintro ⟨id, r⟩ hm
    obtain ⟨y, hy, hi, hd, hn⟩ := h.path.inflight hx hm
    exact hall y (List.mem_of_getElem? hy) (by rw [hi]; rintro ⟨⟩) hd hn

/-- A request of a second connection is cancelled, while the run of a request of the first one goes
on that has the same identifier as another request of the second. -/
theorem cancelled_for_cause_rebound :
    let gate : Handler :=
      { kind := .request, payload := .any, label := "g", outcome := .awaitGate "x" }
    let hang : Handler := { kind := .request, payload := .any, label := "h", outcome := .hang true }
    let w := run {} [.openScript {}, .openScript {}, .openDispatcher, .handle 0 "g" gate,
      .handle 0 "h" hang, .connect 0 0,
      .feed 0 (Message.request (.number 1) "g" .null).frame false, .settle 9, .disconnect 0 false,
      .settle 9, .connect 1 0, .feed 1 ((Message.request (.number 2) "h" .null).frame ++
        (cancelMessage (.number 2)).frame) false, .settle 9]
    (w.runs[1]?).any (w.isCancelled ·) = true ∧ w.journal.cuts 1 = [] ∧
      w.journal.Warrants 1 (.number 2) 1 ∧
      ((w.dispatchers[0]?).map fun x => x.inflight) = some [(.number 1, 0)] ∧
      ∃ y, w.runs[0]? = some y ∧ y.id = some (.number 1) ∧ y.dispatcher = 0 ∧ y.outcome? = none := by
  intro gate hang w
  have h : Reachable w := ⟨_, rfl⟩
  have hc : (w.runs[1]?).any (fun y => w.isCancelled y && decide (y.id = some (.number 2)) &&
      decide (y.conn = 1)) = true := by decide +kernel
  have ht : ((w.dispatchers[0]?).map fun x => x.inflight) = some [(.number 1, 0)] := by
    decide +kernel
  obtain ⟨hcause, -, htable⟩ := cancelled_for_cause h
  obtain ⟨y, hy, hp⟩ := (Option.any_eq_true _ _).mp hc
  simp only [Bool.and_eq_true, decide_eq_true_eq] at hp
  obtain ⟨⟨hcan, hid⟩, hconn⟩ := hp
  obtain ⟨x, hx, hin⟩ := Option.map_eq_some_iff.mp ht
  have hm : (Id.number 1, 0) ∈ x.inflight := by
    rw [hin]
    exact List.mem_singleton.mpr rfl
  refine ⟨by rw [hy]; exact hcan, by decide +kernel, ?_, ht, (htable 0 x hx).2.1 _ _ hm⟩
  have hw := hcause 1 y (.number 2) hy hid hcan
  rwa [hconn] at hw

end Network

end Parley

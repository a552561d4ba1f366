import Parley.Proofs.Handled

/-!
# Who a message is for

A message that comes in starts runs of handlers: those of all descriptors that apply, if it is a
notification, and that of the closest one, if it is a request. The plain handler serves only methods
without any descriptor of the right sort. Where there are descriptors and none applies, nobody is
called: a notification is lost, and a request is refused.

- `Network.Starts`: the runs that begin, and their tasks.
- `Network.starts_notification`, `Network.starts_request`: whom a message starts.
- `Network.runHandler_fresh`: a message is served by a handler of its own sort.
- `Network.routes_exactly`: the whole.
-/

namespace Parley.Network

variable {w w' : Network} {c d : Nat} {x : Connection} {z : Dispatcher}

/-! ## Runs that begin -/

/-- The tasks of the runs that begin next. -/
def comingTasks (w : Network) (n : Nat) : List Task :=
  (List.range' w.runs.length n).map .handler

/-- Some runs begin, in order, and nothing else becomes of runs: each of them is a task behind those
that were there. -/
structure Starts (w w' : Network) (ys : List Run) : Prop where
  runs : w'.runs = w.runs ++ ys
  ready : w'.ready = w.ready ++ (w.comingTasks ys.length).filter fun t => !w.ready.contains t

theorem ready_wake (w : Network) (t : Task) :
    (w.wake t).ready = w.ready ++ [t].filter fun t => !w.ready.contains t := by
  rw [wake]
  split
  · next h => simp [List.contains_iff_mem.mp h]
  · next h => simp [mt List.contains_iff_mem.mpr h]

theorem starts_spawn (w : Network) (y : Run) : Starts w (w.spawn y) [y] := by
  refine ⟨?_, ready_wake _ _⟩
  rw [spawn, wake_eq]
  rfl

/-- Runs begin after others. -/
theorem Starts.trans {u v w : Network} {ys zs : List Run} (h : Starts u v ys) (h' : Starts v w zs) :
    Starts u w (ys ++ zs) := by
  refine ⟨by rw [h'.runs, h.runs, List.append_assoc], ?_⟩
  have htasks : u.comingTasks (ys ++ zs).length =
      u.comingTasks ys.length ++ v.comingTasks zs.length := by
    rw [comingTasks, comingTasks, comingTasks, h.runs, List.length_append, List.length_append,
      ← List.map_append, List.range'_append_1]
  rw [h'.ready, htasks, List.filter_append, ← List.append_assoc, ← h.ready]
  congr 1
  refine List.filter_congr fun t ht => ?_
  -- Later runs have other numbers than earlier ones.
  have hnew : t ∉ (u.comingTasks ys.length).filter fun t => !u.ready.contains t := fun hm => by
    obtain ⟨i, hi, rfl⟩ := List.mem_map.mp ht
    obtain ⟨j, hj, he⟩ := List.mem_map.mp (List.mem_filter.mp hm).1
    obtain rfl := Task.handler.inj he
    rw [h.runs, List.length_append, List.mem_range'_1] at hi
    rw [List.mem_range'_1] at hj
    omega
  have hmem : t ∈ v.ready ↔ t ∈ u.ready := by
    rw [h.ready, List.mem_append]
    exact ⟨fun h => h.resolve_right hnew, .inl⟩
  simp only [List.contains_eq_mem, hmem]

theorem starts_spawns (w : Network) (ys : List Run) :
    Starts w (ys.foldl (fun w y => w.spawn y) w) ys := by
  induction ys generalizing w with
  | nil => exact ⟨(List.append_nil _).symm, (List.append_nil _).symm⟩
  | cons y ys ih => exact (starts_spawn w y).trans (ih _)

/-! ## Whom a message starts -/

/-- A notification that is no cancellation starts all its handlers, with the languages that it tells
about itself. -/
theorem starts_notification (hx : w.conns[c]? = some x) (hd : x.dispatcher = some d)
    (hz : w.dispatchers[d]? = some z) {method : String} (params : Json)
    (hm : method ≠ cancelMethod) :
    Starts w (w.receive c (.notification method params))
      (((z.observe method params).handlersFor method params).map fun handler =>
        { conn := c, dispatcher := d, id := none, method, handler, params }) := by
  -- The documents are opened before the handlers are looked up, and closed after that.
  let z' := z.observe method params
  let v := (w.emit (.received c (.notification method params))).modifyDispatcher d
    fun _ => z'.observeClosed method params
  have hr : w.receive c (.notification method params) =
      (z'.handlersFor method params).foldl (fun w handler =>
        w.spawn { conn := c, dispatcher := d, id := none, method, handler, params }) v := by
    rw [receive, hx, Option.bind_some, hd]
    show receiveNotification _ c d method params = _
    rw [receiveNotification, if_neg hm]
    have hz' : (w.emit (.received c (.notification method params))).dispatchers[d]? = some z := hz
    simp only [hz']
    rfl
  obtain ⟨hruns, hready⟩ := starts_spawns v ((z'.handlersFor method params).map fun handler =>
    ({ conn := c, dispatcher := d, id := none, method, handler, params } : Run))
  rw [List.foldl_map] at hruns hready
  rw [hr]
  exact ⟨hruns, hready⟩

/-- A request starts its handler. -/
theorem starts_request (hx : w.conns[c]? = some x) (hd : x.dispatcher = some d)
    (hz : w.dispatchers[d]? = some z) (id : Id) {method : String} {params : Json}
    {handler : Handler} (hh : z.handlerFor method params = some handler) :
    Starts w (w.receive c (.request id method params))
      [{ conn := c, dispatcher := d, id := some id, method, handler, params }] := by
  rw [receive_entered hx hd id (by rw [hz, Option.bind_some, hh])]
  obtain ⟨hruns, hready⟩ := starts_spawn ((w.emit (.received c (.request id method params)))
    |>.modifyDispatcher d fun z => z.enter id w.runs.length)
    { conn := c, dispatcher := d, id := some id, method, handler, params }
  exact ⟨hruns, hready⟩

/-- A request starts nothing and is refused: there is no such method. -/
structure Declines (w w' : Network) (c : Nat) (id : Id) (method : String) (params : Json) :
    Prop where
  runs : w'.runs = w.runs
  journal : (w.conns[c]?).any Connection.isOpen = true →
    w'.journal = .accepted c (.reply (.err id (noSuchMethod method))) ::
      .unserved c id method params :: .received c (.request id method params) :: w.journal

/-- A request that has no handler is refused. -/
theorem declines_request (hx : w.conns[c]? = some x) (hd : x.dispatcher = some d)
    (hz : w.dispatchers[d]? = some z) (id : Id) {method : String} {params : Json}
    (hh : z.handlerFor method params = none) :
    Declines w (w.receive c (.request id method params)) c id method params := by
  have hh' : ((w.dispatchers[d]?).bind fun y => y.handlerFor method params) = none := by
    rw [hz, Option.bind_some, hh]
  refine ⟨?_, fun ho => receive_refused hx (by simpa [hx] using ho) hd id hh'⟩
  let v := (w.emit (.received c (.request id method params))).emit (.unserved c id method params)
  obtain ⟨q, -, he⟩ := roused_sendOn v c (.reply (.err id (noSuchMethod method)))
  rw [receive_unserved hx hd id hh', reply, he]
  rfl

/-! ## Messages and handlers of one sort -/

/-- A run that begins has its handler serve what it is: a notification, or a request. -/
theorem runHandler_fresh (hw : w.Manned) {r : Nat} {y : Run} (hy : w.runs[r]? = some y)
    (hs : y.stage = .fresh) :
    w.runHandler r = y.id.elim (w.runNotification r y) fun _ => w.runRequest r y := by
  have hk := hw.kind y (List.mem_of_getElem? hy)
  rw [runHandler, hy]
  simp only [hs, begin, hk]
  cases y.id <;> rfl

/-! ## The whole -/

/-- **Exact routing.** Whatever was registered and taken back, and whichever documents are open: a
notification for whose method there are descriptors for notifications starts the handlers of those
that apply to its document, in the order of their registration, and nothing else; another one starts
the plain handler, if there is one. A request for whose method there are descriptors for requests
starts the handler of the one that is chosen among them, which applies, and is refused if none
applies; another one starts the plain handler, or is refused. Every run has a handler of the sort of
its message, so that no handler is ever asked for what it does not serve. -/
theorem routes_exactly (h : Reachable w) (v : Network) (hv : Path w v) :
    (∀ (c d : Nat) (x : Connection) (z : Dispatcher) (method : String) (params : Json),
      v.conns[c]? = some x → x.dispatcher = some d → v.dispatchers[d]? = some z →
      let run : Option Id → Handler → Run := fun id handler =>
        { conn := c, dispatcher := d, id, method, handler, params }
      z.Numbered v.registrations.length ∧
      (method ≠ cancelMethod → Starts v (v.receive c (.notification method params))
        (if z.candidates method false = [] then (z.notifications.lookup method).toList.map (run none)
        else ((z.candidates method false).filter
          (applies Entry.selector (z.languages.opened method params) params)).map
            fun e => run none e.descriptor.handler)) ∧
      ∀ id : Id,
        (z.candidates method true = [] → match z.requests.lookup method with
          | some handler =>
            Starts v (v.receive c (.request id method params)) [run (some id) handler]
          | none => Declines v (v.receive c (.request id method params)) c id method params) ∧
        (z.candidates method true ≠ [] →
          match chosen Entry.selector z.languages params (z.candidates method true) with
          | some e => e ∈ z.candidates method true ∧
            applies Entry.selector z.languages params e = true ∧
            Starts v (v.receive c (.request id method params)) [run (some id) e.descriptor.handler]
          | none => (∀ e ∈ z.candidates method true,
              applies Entry.selector z.languages params e = false) ∧
            Declines v (v.receive c (.request id method params)) c id method params)) ∧
    ∀ (r : Nat) (y : Run), v.runs[r]? = some y →
      y.handler.kind.isRequest = y.id.isSome ∧
      (y.stage = .fresh →
        v.runHandler r = y.id.elim (v.runNotification r y) fun _ => v.runRequest r y) := by
  have hp := h.path.trans hv
  refine ⟨?_, fun r y hy =>
    ⟨hp.manned.kind y (List.mem_of_getElem? hy), runHandler_fresh hp.manned hy⟩⟩
  intro c d x z method params hx hd hz run
  refine ⟨hp.numbered z (List.mem_of_getElem? hz), fun hm => ?_,
    fun id => ⟨fun hn => ?_, fun hn => ?_⟩⟩
  · -- Whoever has registered for the method comes first; only if there is nobody the plain handler
    -- is asked.
    have hs := starts_notification hx hd hz params hm
    rw [Dispatcher.handlersFor_eq] at hs
    have hc : (z.observe method params).candidates method false = z.candidates method false := rfl
    rw [hc] at hs
    split
    · next hn => rwa [if_pos hn] at hs
    · next hn => rwa [if_neg hn, List.map_map] at hs
  · -- A request has one handler at most. Without candidates it is the plain one.
    have hh : z.handlerFor method params = z.requests.lookup method := by
      rw [Dispatcher.handlerFor_eq, if_pos hn]
    split
    · next hl => exact starts_request hx hd hz id (hh.trans hl)
    · next hl => exact declines_request hx hd hz id (hh.trans hl)
  · -- With candidates it is the chosen one of them, or nobody, but not the plain one.
    have hh := Dispatcher.handlerFor_eq z method params
    rw [if_neg hn] at hh
    split
    · next e he =>
      obtain ⟨hm, ha⟩ := chosen_mem he
      exact ⟨hm, ha, starts_request hx hd hz id (by rw [hh, he, Option.map_some])⟩
    · next he =>
      exact ⟨chosen_eq_none.mp he, declines_request hx hd hz id (by rw [hh, he, Option.map_none])⟩

/-- A notification about a document of one language, where there are descriptors for that language,
for another one and for its scheme, and a plain handler. -/
theorem routes_exactly_mixed :
    let entry (key : String) (kind : HandlerKind) (selector : Selector) : Descriptor :=
      { method := "m", key, handler := { kind, payload := .any, label := key }, selector,
        paramsType := "value" }
    let w := run {} [.openScript {}, .openDispatcher,
      .handle 0 "m" { kind := .notification, payload := .any, label := "plain" },
      .register 0 (entry "rust" .notification (.ofLanguage "rust")) [],
      .register 0 (entry "asked" .request (.ofLanguage "rust")) [],
      .register 0 (entry "file" .notification (.ofScheme "file")) [],
      .register 0 (entry "lean" .notification (.ofLanguage "lean")) [], .connect 0 0, .settle 9]
    let params : Json := .ofMembers [("textDocument",
      .ofMembers [("uri", .str "file:///a"), ("languageId", .str "lean")])]
    ((w.receive 0 (.notification "m" params)).runs.map fun y => y.handler.label) = ["file", "lean"] ∧
      Declines w (w.receive 0 (.request (.number 1) "m" params)) 0 (.number 1) "m" params := by
  intro entry w params
  have hw : Reachable w := ⟨_, rfl⟩
  -- What the theorem asks for is evaluated first, then it is applied.
  have hx : (w.conns[0]?).any (fun x => decide (x.dispatcher = some 0)) = true := by decide +kernel
  have hruns : (w.runs.map fun y => y.handler.label) = [] := by decide +kernel
  have hz : (w.dispatchers[0]?).any (fun z =>
      !(z.candidates "m" false).isEmpty && !(z.candidates "m" true).isEmpty &&
        (chosen Entry.selector z.languages params (z.candidates "m" true)).isNone &&
        decide ((((z.candidates "m" false).filter (applies Entry.selector
          (z.languages.opened "m" params) params)).map fun e => e.descriptor.handler.label) =
            ["file", "lean"])) = true := by decide +kernel
  obtain ⟨x, hx, hd⟩ := (Option.any_eq_true _ _).mp hx
  obtain ⟨z, hz, hp⟩ := (Option.any_eq_true _ _).mp hz
  simp only [Bool.and_eq_true, Bool.not_eq_true', List.isEmpty_eq_false_iff,
    Option.isNone_iff_eq_none, decide_eq_true_eq] at hp
  obtain ⟨⟨⟨hnot, hreq⟩, hnone⟩, hlabels⟩ := hp
  obtain ⟨-, hnotified, hasked⟩ :=
    (routes_exactly hw w (.refl w)).1 0 0 x z "m" params hx (of_decide_eq_true hd) hz
  have hs := hnotified (by decide)
  rw [if_neg hnot] at hs
  have hr := (hasked (.number 1)).2 hreq
  rw [hnone] at hr
  refine ⟨?_, hr.2⟩
  rw [hs.runs, List.map_append, hruns, List.map_map]
  exact hlabels

end Parley.Network

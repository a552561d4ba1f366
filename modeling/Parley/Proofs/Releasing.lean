import Parley.Proofs.Delivery
import Parley.Proofs.Release

/-!
# Nothing is released too early or kept too long

The turns of the two loops and the actions of users stop loops only by the ways that release what is
not needed any more. Everything else lets the loops go on.

- `Network.continues_teardown`: the beginning of an end stops no loop yet.
- `Network.Released.perform`: the turn of a task.
- `Network.Reachable.released`: the halves of streams and the pipes of every network.
-/

namespace Parley.Network

open Connection (Halts)

variable {u v w w' : Network} {c : Nat} {x : Connection}

/-! ## What lets the loops go on -/

/-- The beginning of an end stops no loop yet. -/
theorem continues_teardown (w : Network) (c : Nat) (flush : Bool) :
    Continues w (w.teardown c flush) := by
  cases hx : w.conns[c]? with
  | none =>
    rw [teardown_of_not_live (by simp [hx])]
    exact .refl w
  | some x =>
    cases hp : x.phase.isLive with
    | false =>
      rw [teardown_of_not_live (by simp [hx, hp])]
      exact .refl w
    | true =>
      have hcut : Continues w (w.modifyConn c fun x => x.cut flush) := by
        refine .modifyConn w c (fun y hy => ?_) fun _ _ => rfl
        -- A connection that is cut was open, and is not closed before both loops have stopped.
        obtain rfl := Option.some.inj (hx.symm.trans hy)
        refine Connection.halts_congr .rfl .rfl (iff_of_false (by rintro ⟨⟩) ?_)
        intro h
        rw [h] at hp
        cases hp
      have hsevered : Continues w (w.severed c x flush) :=
        (hcut.trans (.emit _ _)).trans ⟨fun _ => rfl, fun _ => rfl, fun _ => rfl, List.suffix_rfl⟩
      exact hsevered.trans (.roused (teardown_of_live hx hp flush).1)

/-- Bytes that are taken from a pipe leave its door as it is. -/
theorem continues_takeInput (w : Network) (c : Nat) : Continues w (w.takeInput c).2.2 := by
  rw [takeInput]
  split
  · exact .refl w
  · next input output hs =>
    refine .modifyConn w c (fun _ _ => rfl) fun x hx => ?_
    rw [Option.some.inj ((congrArg (Option.map Connection.stream) hx).symm.trans hs)]
    rfl
  · next i o _ =>
    split
    · exact .refl w
    · simp only
      split
      · exact .refl w
      · -- Only what the pipe holds changes, and that is no part of its door.
        let v : Network := { w with pipes := w.pipes.modify i fun p => { p with held := [] } }
        have hv : Continues w v := by
          refine ⟨fun _ => rfl, fun _ => rfl, fun j => ?_, List.suffix_rfl⟩
          rw [List.getElem?_modify]
          cases w.pipes[j]? with
          | none => rfl
          | some p => by_cases hj : i = j <;> simp [hj, Pipe.door]
        exact hv.trans (.roused (roused_wakeBusyWriter v _))

/-- Neither do bytes that are put into it. -/
theorem continues_takeOutput (w : Network) (c : Nat) (bs : List UInt8) :
    Continues w (w.takeOutput c bs).2 := by
  rw [takeOutput]
  split
  · exact .refl w
  · next input output hs =>
    refine .modifyConn w c (fun _ _ => rfl) fun x hx => ?_
    rw [Option.some.inj ((congrArg (Option.map Connection.stream) hx).symm.trans hs)]
    rfl
  · next i o _ =>
    split
    · exact .refl w
    · next p hp =>
      -- The bytes are added to what the pipe holds; its flag and its sides stay.
      let v : Network := { w with pipes := w.pipes.modify o fun _ => (p.take bs).2 }
      have hv : Continues w v := by
        refine ⟨fun _ => rfl, fun _ => rfl, fun j => ?_, List.suffix_rfl⟩
        rw [List.getElem?_modify]
        by_cases hj : o = j
        · subst hj
          rw [hp, p.take_snd bs]
          simp [Pipe.door]
        · simp [hj]
      simp only
      split
      · exact hv
      · exact hv.trans (.roused (roused_wakeReader v _))

/-- A loop that writes goes on. -/
theorem continues_write {rest : List UInt8} (hx : w.conns[c]? = some x)
    (hw : x.writing = .busy rest) (bs : List UInt8) : Continues w (w.write c bs).2 := by
  have ht := continues_takeOutput w c bs
  rw [write]
  simp only
  split
  · exact ht
  · let busy : Writing := .busy (bs.drop (w.takeOutput c bs).1.count)
    have hbusy : Continues (w.takeOutput c bs).2
        ((w.takeOutput c bs).2.modifyConn c fun x => { x with writing := busy }) := by
      refine .modifyConn _ c (fun y hy => ?_) fun _ _ => rfl
      -- The stream took bytes, and the loop still writes.
      have hhalts := ht.halts c
      rw [halts_of_conn hy, halts_of_conn hx] at hhalts
      have hwriting : y.writing ≠ .stopped := by
        have := congrArg Halts.writing (Option.some.inj hhalts)
        simpa [Connection.halts, hw] using this
      exact Connection.halts_congr .rfl (iff_of_false (by rintro ⟨⟩) hwriting) .rfl
    exact (ht.trans hbusy).trans (.emit _ _)

/-- A message that is received stops nothing. -/
theorem continues_receive (hx : w.conns[c]? = some x) (hr : x.IsReading) (m : Message) :
    Continues w (w.receive c m) := by
  refine .inside (inside_receive hx hr m) ?_
  cases hd : x.dispatcher with
  | none => rw [receive, hx, Option.bind_some, hd]
  | some d => exact congrArg Inflow.pipes (inflow_receive hx hd m)

/-! ## Turns of the loops -/

namespace Released

/-- A reader that cuts its connection and stops keeps the account. -/
theorem teardown_stopReading (hR : w.Released) (hx : w.conns[c]? = some x) (flush : Bool) :
    ((w.teardown c flush).stopReading c).Released := by
  obtain ⟨y, hy, -⟩ := teardown_conn hx flush
  exact (hR.continues (continues_teardown w c flush)).stopReading hy

/-- So it does at a fault. -/
theorem failReading (hR : w.Released) (hx : w.conns[c]? = some x) (e : ReadError) :
    (w.failReading c e).Released :=
  (hR.continues (.emit w _)).teardown_stopReading hx false

/-- So it does at the end of the stream. -/
theorem endReading (hR : w.Released) (hx : w.conns[c]? = some x) : (w.endReading c).Released :=
  hR.teardown_stopReading hx _

/-- The turn of the loop that reads keeps the account of what is released. -/
theorem readLoop (hR : w.Released) (c : Nat) : (w.readLoop c).Released := by
  apply readLoop_induction (P := fun v => v.Released ∧ v.Reads c) (Q := Released)
  case receive =>
    -- Nothing that a message brings about stops a loop.
    rintro v m ⟨hv, x, hx, hr⟩
    exact ⟨hv.continues (continues_receive hx hr m), Reads.receive ⟨x, hx, hr⟩ m⟩
  case fail =>
    rintro v e ⟨hv, x, hx, -⟩
    exact hv.failReading hx e
  case done =>
    rintro v ⟨hv, x, hx, -⟩
    exact hv.endReading hx
  case goOn =>
    rintro v s ⟨hv, x, hx, ⟨t, ht⟩, -⟩
    refine hv.continues (.modifyConn v c (fun y hy => ?_) fun _ _ => rfl)
    obtain rfl := Option.some.inj (hx.symm.trans hy)
    have hrunning : ¬x.reading = .stopped := fun h => by cases ht.symm.trans h
    exact Connection.halts_congr (iff_of_false (by rintro ⟨⟩) hrunning) .rfl .rfl
  case rest => exact hR
  case stop => exact fun x s hx _ _ => hR.stopReading hx
  case take =>
    exact fun x s hx hs hd => ⟨hR.continues (continues_takeInput w c), reads_takeInput hx hs hd⟩

/-- A write that fails cuts the connection and stops the writer. -/
theorem failWriting (hR : w.Released) (hx : w.conns[c]? = some x) (text : String) :
    (w.failWriting c text).Released := by
  obtain ⟨y, hy, -⟩ := teardown_conn (w := w.log (.writeFailed text)) hx false
  have hlog := hR.continues (.emit w (.logged (.writeFailed text)))
  have hdown := hlog.continues (continues_teardown _ c false)
  exact (hdown.continues (.emit _ (.broke c))).stopWriting hy

/-- A round of the writing loop keeps the account. -/
theorem writeOn {rest : List UInt8} (hR : w.Released) (hx : w.conns[c]? = some x)
    (ha : x.aborted = false) (hw : x.writing = .busy rest) : (w.writeOn c rest).Released := by
  have hwrite := hR.continues (continues_write hx hw rest)
  obtain ⟨-, s, hs⟩ := moves_write hx ha hw
  rw [Network.writeOn]
  simp only
  split
  · exact hwrite.failWriting hs _
  · split
    · split
      · exact hwrite.failWriting hs _
      · refine hwrite.continues (.modifyConn _ c (fun y hy => ?_) fun _ _ => rfl)
        obtain rfl := Option.some.inj (hs.symm.trans hy)
        exact Connection.halts_congr .rfl (iff_of_false (by rintro ⟨⟩) (by rintro ⟨⟩)) .rfl
    · exact hwrite

/-- So does its turn: message by message, as long as the stream takes them. -/
theorem writeLoop (hR : w.Released) (c n : Nat) : (Network.writeLoop c n w).Released := by
  apply writeLoop_induction (P := Released)
  case abort => exact fun hv hx _ _ => hv.stopWriting hx
  case drain =>
    intro v x l hv hx _ _
    have hset : Continues v (v.setLink c l) := .modifyConn v c (fun _ _ => rfl) fun _ _ => rfl
    refine (hv.continues hset).stopWriting (x := { x with link := some l }) ?_
    rw [setLink, getElem?_modifyConn_self, hx]
    rfl
  case begin =>
    intro v x m l hv hx _ hw _
    refine hv.continues (.modifyConn v c (fun y hy => ?_) fun _ _ => rfl)
    obtain rfl := Option.some.inj (hx.symm.trans hy)
    exact Connection.halts_congr .rfl (iff_of_false (by rintro ⟨⟩) (by simp [hw])) .rfl
  case goOn => exact fun hv hx ha hw => hv.writeOn hx ha hw
  case h => exact hR

/-- The turn of a task. -/
theorem perform (hR : w.Released) (t : Task) : (w.perform t).Released := by
  cases t with
  | reader c => exact hR.readLoop c
  | writer c => exact hR.writeLoop c _
  | handler r =>
    exact hR.continues (.inside (inside_runHandler w r)
      (congrArg Inflow.pipes (inflow_runHandler w r)))
  | caller k =>
    exact hR.continues (.inside (inside_checkCall w k).1
      (congrArg Inflow.pipes (inflow_checkCall w k)))

/-- Once all tasks have had their turns the account is kept. -/
theorem settle (hR : w.Released) (n : Nat) : (Network.settle n w).Released := by
  refine settle_induction hR ?_ n
  intro u v hs hu
  obtain ⟨t, q, -, rfl⟩ := step_eq_some.mp hs
  have hpop : Continues u { u with ready := q } :=
    ⟨fun _ => rfl, fun _ => rfl, fun _ => rfl, List.suffix_rfl⟩
  exact (hu.continues hpop).perform t

end Released

/-! ## Actions -/

/-- Waking somebody is nothing to the loops. -/
theorem loops_roused (h : Roused w w') : w'.loops = w.loops := by
  obtain ⟨q, -, rfl⟩ := h
  rfl

/-- A call is nothing to the loops. -/
theorem loops_call {sender : Sender} {method : String} {params : Except Json.Cause Json}
    {shape : Option Json.Shape} {k : Nat} (h : w.call sender method params shape = .ok (k, w')) :
    w'.loops = w.loops := by
  cases hd : w.dispatcherOf sender with
  | error e => simp [call, hd] at h
  | ok d =>
    cases params with
    | error cause => simp [call, hd] at h
    | ok params =>
      simp only [call, hd] at h
      cases hs : w.startCall d method params shape none with
      | error e => simp [hs, Except.map] at h
      | ok p =>
        obtain ⟨n, v⟩ := p
        obtain ⟨rfl, rfl⟩ : n = k ∧ v.checkCall n = w' := by simpa [hs, Except.map] using h
        obtain ⟨u, x, l, l', hu, -, -, -, -, -, -, -, -, -, -, hv⟩ := startCall_eq_ok hs
        calc (v.checkCall n).loops = v.loops := (inside_checkCall v n).1.loops
          _ = (u.begun x l' params).loops := loops_roused hv
          _ = u.loops := loops_begun u x l' params
          _ = w.loops := hu.loops

/-- A call that is dropped stops nothing. -/
theorem continues_dropCall (w : Network) (k : Nat) : Continues w (w.dropCall k) := by
  have hpipes : (w.dropCall k).pipes = w.pipes := congrArg Inflow.pipes (inflow_dropCall w k)
  rcases dropCall_cases w k with h | ⟨u, x, hu, -, -, -, hr⟩
  · rw [h]
    exact .refl w
  · refine .of_loops ?_ ?_ hpipes
    · have hgiven : u.journal <:+ (u.givenUp k x).journal :=
        (List.suffix_append _ _).trans (List.suffix_cons _ _)
      exact (hu.moves.suffix.trans hgiven).trans hr.moves.suffix
    · exact (loops_roused hr).trans ((loops_withdraw u x.conn x.id).trans hu.loops)

/-- No loop of a connection that was just made has stopped. -/
theorem halts_append {xs : List Connection} (hx : ∀ x ∈ xs, x.IsFresh)
    (hc : w'.conns = w.conns ++ xs) (hle : w.conns.length ≤ c) {h : Halts}
    (hh : w'.halts c = some h) : h = ⟨false, false, false⟩ := by
  obtain ⟨y, hy, rfl⟩ := Option.map_eq_some_iff.mp hh
  rw [hc, List.getElem?_append_right hle] at hy
  obtain ⟨config, stream, rfl⟩ := hx y (List.mem_of_getElem? hy)
  rfl

/-- Connections and pipes are made. -/
theorem Released.opened (hR : w.Released) (hW : w'.Wired) {xs : List Connection} {ps : List Pipe}
    (hx : ∀ x ∈ xs, x.IsFresh) (hp : ∀ p ∈ ps, p.closed = false ∧ w.conns.length ≤ p.writer ∧
      w.conns.length ≤ p.reader)
    (hc : w'.conns = w.conns ++ xs) (hps : w'.pipes = w.pipes ++ ps) (hj : w'.journal = w.journal) :
    w'.Released := by
  have old : ∀ {c i o : Nat}, w.ends c = some (i, o) → w'.halts c = w.halts c := by
    intro c i o he
    obtain ⟨x, hx, -⟩ := Option.bind_eq_some_iff.mp he
    rw [halts, halts, hc, getElem?_append_of_some hx, hx]
  -- What was there before is as it was, and what is new has not stopped.
  refine ⟨hW, fun {c h} hh => ?_, fun {i p} hi => ?_⟩
  · rcases Nat.lt_or_ge c w.conns.length with hlt | hle
    · rw [halts, hc, List.getElem?_append_left hlt] at hh
      exact (hR.marks hh).suffix (hj ▸ List.suffix_rfl)
    · rw [halts_append hx hc hle hh]
      constructor <;> rintro ⟨⟩
  · rw [hps] at hi
    rcases Nat.lt_or_ge i w.pipes.length with hlt | hle
    · rw [List.getElem?_append_left hlt] at hi
      obtain ⟨k, hk⟩ := hR.wired.back (sides_eq_some hi)
      obtain ⟨l, hl⟩ := hR.wired.front (sides_eq_some hi)
      rw [isMute, isClosed, old hk, old hl]
      exact hR.pipe hi
    · rw [List.getElem?_append_right hle] at hi
      obtain ⟨hopen, hwriter, hreader⟩ := hp p (List.mem_of_getElem? hi)
      rw [hopen]
      refine iff_of_false (by rintro ⟨⟩) ?_
      rintro (hm | hm)
      · obtain ⟨h, hh, hm⟩ := (Option.any_eq_true _ _).mp hm
        rw [halts_append hx hc hwriter hh] at hm
        cases hm
      · obtain ⟨h, hh, hm⟩ := (Option.any_eq_true _ _).mp hm
        rw [halts_append hx hc hreader hh] at hm
        cases hm

/-- A connection is given back that was never connected, or its end begins. -/
theorem Released.disconnect (hR : w.Released) (c : Nat) (flush : Bool) :
    (w.disconnect c flush).Released := by
  rw [Network.disconnect]
  split
  · next hp =>
    obtain ⟨x, hx, hp⟩ := Option.map_eq_some_iff.mp hp
    let v := (w.emit (.stream c .readerDropped)).emit (.stream c .writerDropped)
    have hv : v.Released := hR.continues (Continues.trans (.emit w _) (.emit _ _))
    exact hv.close hx rfl (fun _ => rfl) (List.mem_cons_of_mem _ List.mem_cons_self)
      List.mem_cons_self
  · exact hR.continues (continues_teardown w c flush)

/-- A connection that is connected has not stopped its loops before. -/
theorem continues_connect (hw : Reachable w) (c d : Nat) : Continues w (w.connect c d).2 := by
  rcases connect_cases w c d with ⟨x, hx, hp, -, -, h⟩ | ⟨e, h⟩ | ⟨x, hx, hp, hs, -⟩
  · rw [h]
    have hu := (hw.sound.conn c x hx).unused_of_disconnected hp
    have hstart : Continues w (w.modifyConn c fun x => x.start d) := by
      refine .modifyConn w c (fun y hy => ?_) fun _ _ => rfl
      obtain rfl := Option.some.inj (hx.symm.trans hy)
      exact Connection.halts_congr (iff_of_false (by rintro ⟨⟩) (by simp [hu.reading]))
        (iff_of_false (by rintro ⟨⟩) (by simp [hu.writing]))
        (iff_of_false (by rintro ⟨⟩) (by simp [hp]))
    have hbound : Continues w ((w.modifyConn c fun x => x.start d).modifyDispatcher d
        fun x => { x with bound := some c }) :=
      hstart.trans ⟨fun _ => rfl, fun _ => rfl, fun _ => rfl, List.suffix_rfl⟩
    exact hbound.trans (.roused (roused_joined w c d))
  · rw [h]
    exact .refl w
  · have hu := (hw.sound.conn c x hx).unused_of_disconnected hp
    cases hs.symm.trans (hu.hasStream hp)

/-- What a script holds ready is nothing to the loops and the pipes. -/
theorem continues_modifyScript (w : Network) (c : Nat) (f : Input × Output → Input × Output) :
    Continues w (w.modifyScript c f) := by
  refine .modifyConn w c (fun x _ => ?_) fun x _ => ?_
  · cases hs : x.stream <;> rfl
  · cases hs : x.stream with
    | script input output => rfl
    | pipes i o => exact congrArg Stream.ends hs

/-- An attempt stops nothing if the success stops nothing. -/
theorem continues_attempt {o : Except CallError Network} (h : ∀ v, o = .ok v → Continues w v) :
    Continues w (w.attempt o).2 := by
  cases o with
  | error e => exact .refl w
  | ok v => exact h v rfl

/-- So it is with an attempt that makes something. -/
theorem continues_attemptMade {o : Except CallError (Nat × Network)}
    (h : ∀ n v, o = .ok (n, v) → Continues w v) : Continues w (w.attemptMade o).2 := by
  cases o with
  | error e => exact .refl w
  | ok p => exact h p.1 p.2 rfl

/-- Every action releases what has stopped. -/
theorem Released.act (hR : w.Released) (hw : Reachable w) (a : Action) : (w.act a).2.Released := by
  -- Three groups of actions: those that only touch what the tasks work on, those that touch neither
  -- connections nor pipes nor journal, and those that open or close something.
  have aside : ∀ {v : Network}, Aside w v → v.inflow = w.inflow → v.Released := fun h hi =>
    hR.continues (.inside h.inside (congrArg Inflow.pipes hi))
  have same : ∀ {v : Network}, v.conns = w.conns → v.pipes = w.pipes → v.journal = w.journal →
      v.Released := fun hc hp hj => hR.continues
    (.of_loops (hj ▸ List.suffix_rfl) (congrArg (List.map _) hc) hp)
  have hwired := hR.wired.act a
  cases a with
  | openScript config =>
    -- What is opened has stopped nothing, and its pipes are open.
    refine hR.opened hwired (fun x hx => ?_) ?_ rfl (List.append_nil w.pipes).symm rfl
    · obtain rfl := List.mem_singleton.mp hx
      exact ⟨_, _, rfl⟩
    · exact fun p hp => absurd hp List.not_mem_nil
  | openPipes capacity first second =>
    refine hR.opened hwired (fun x hx => ?_) (fun p hp => ?_) rfl rfl rfl
    · simp only [List.mem_cons, List.not_mem_nil, or_false] at hx
      rcases hx with rfl | rfl <;> exact ⟨_, _, rfl⟩
    · simp only [List.mem_cons, List.not_mem_nil, or_false] at hp
      rcases hp with rfl | rfl
      · exact ⟨rfl, Nat.le_succ _, Nat.le_refl _⟩
      · exact ⟨rfl, Nat.le_refl _, Nat.le_succ _⟩
  | openDispatcher => exact same rfl rfl rfl
  -- A dispatcher that is dropped leaves its connections to themselves.
  | dropDispatcher d => exact aside (aside_dropDispatcher w d) (inflow_dropDispatcher w d)
  | dropConn c => exact hR.disconnect c false
  | connect c d => exact hR.continues (continues_connect hw c d)
  | disconnect c flush => exact hR.disconnect c flush
  | feed c bytes ended =>
    exact hR.continues ((continues_modifyScript w c _).trans (.roused (roused_wakeReader _ c)))
  | fault c text =>
    exact hR.continues ((continues_modifyScript w c _).trans (.roused (roused_wakeReader _ c)))
  | setOutput c output =>
    exact hR.continues ((continues_modifyScript w c _).trans (.roused (roused_wakeBusyWriter _ c)))
  | notify sender method params =>
    exact hR.continues (continues_attempt fun v hv =>
      .inside (aside_notify hv).inside (congrArg Inflow.pipes (inflow_notify hv)))
  | call sender method params shape =>
    exact hR.continues (continues_attemptMade fun n v hv =>
      .of_loops (moves_call hv).suffix (loops_call hv) (congrArg Inflow.pipes (inflow_call hv)))
  | dropCall k => exact hR.continues (continues_dropCall w k)
  | advance secs =>
    refine hR.continues (.of_loops (moves_advance w secs).suffix ?_
      (congrArg Inflow.pipes (inflow_advance w secs)))
    exact loops_roused (w := { w with clock := w.clock + secs }) (roused_wakeWaiters _ _).1
  | openGate gate =>
    exact hR.continues (.inside (inside_openGate w gate)
      (congrArg Inflow.pipes (inflow_openGate w gate)))
  | handle d method h =>
    exact hR.continues (continues_attempt fun v hv =>
      .inside (aside_handle hv).inside (congrArg Inflow.pipes (inflow_handle hv)))
  | register d descriptor hooks =>
    exact hR.continues (continues_attemptMade fun n v hv =>
      .inside (aside_register hv).inside (congrArg Inflow.pipes (inflow_register hv)))
  | keep d descriptor hooks => exact same rfl rfl rfl
  | unregister serial => exact aside (aside_unregister w serial) (inflow_unregister w serial)
  | settle turns => exact hR.settle turns

/-- **What is released.** In every network that can be reached, the halves of streams are dropped
whose loops have stopped, and the pipes are closed that nobody writes into or reads from any more,
and no others. -/
theorem Reachable.released (hw : Reachable w) : w.Released := by
  have h0 : ({} : Network).Released := by
    constructor
    case wired => exact Reachable.wired ⟨[], rfl⟩
    case marks =>
      intro _ _ h
      cases h
    case pipe =>
      intro _ _ h
      cases h
  exact hw.induction h0 fun a hr hv => hv.act hr a

end Parley.Network

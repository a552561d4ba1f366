import Parley.Proofs.Wiring

/-!
# Who leaves the intake of a connection alone

A connection takes in what arrives at it in its own turn only, and when it is connected. The turn of
every other task, and whatever else a user does, leaves its intake alone.

- `Network.spares_write`: what one connection writes arrives at the other one.
- `Network.spares_readLoop`: another connection reads.
- `Network.spares_perform`, `Network.spares_act`: every turn and every action but the ones that are
  about this connection.
-/

namespace Parley

/-- Whether an action is about what comes in over a connection. -/
def Action.concerns (c : Nat) : Action → Bool
  | .connect d _ | .feed d _ _ | .fault d _ => d == c
  | _ => false

namespace Network

variable {u v w w' : Network} {c d : Nat} {x : Connection}

/-- A log line is nothing to the bytes on their way. -/
theorem spares_log (hW : w.Wired) (l : Log) (c : Nat) : Spares c w (w.log l) :=
  .of_pipes hW List.prefix_rfl (fun _ => rfl) rfl rfl rfl fun _ _ _ => rfl

/-- The ends of a connection are those of its stream. -/
theorem ends_of_conn (hx : w.conns[c]? = some x) : w.ends c = x.stream.ends := by
  rw [ends, hx]
  rfl

/-! ## Writing -/

/-- After the stream has taken bytes, that is noted, and nothing else changes that has to do with
what comes in. -/
structure Noted (w w' : Network) (d : Nat) (bs : List UInt8) : Prop where
  ready : w'.ready = w.ready
  conns : w'.inflow.conns = w.inflow.conns
  pipes : w'.pipes = w.pipes
  received : ∀ c, w'.journal.received c = w.journal.received c
  written : ∀ c, w'.journal.written c = w.journal.written c ++ if d = c then bs else []

/-- A write puts down the bytes that were taken, and nothing else. -/
theorem noted_write (w : Network) (d : Nat) (rest : List UInt8) :
    Noted (w.takeOutput d rest).2 (w.write d rest).2 d
      (rest.take (w.takeOutput d rest).1.count) := by
  rw [write]
  simp only
  split
  · next h0 =>
    refine ⟨rfl, rfl, rfl, fun _ => rfl, fun c => ?_⟩
    rw [h0, List.take_zero, ite_self, List.append_nil]
  · refine ⟨rfl, ?_, rfl, fun _ => rfl, fun c => ?_⟩
    · have hbusy := inflow_modifyConn (w.takeOutput d rest).2 d
        (f := fun x => { x with writing := .busy (rest.drop (w.takeOutput d rest).1.count) })
        fun _ _ => rfl
      have hconns := congrArg Inflow.conns hbusy
      exact hconns
    · show Journal.written c (.wrote d _ :: _) = _
      rw [Journal.written]
      split
      · rfl
      · exact (List.append_nil _).symm

/-- A connection over a script writes into no pipe. -/
theorem spares_write_script (hW : w.Wired) (hx : w.conns[d]? = some x) {input : Input}
    {output : Output} (hs : x.stream = .script input output) (rest : List UInt8) (c : Nat) :
    Spares c w (w.write d rest).2 := by
  -- A script is no pipe: nothing that somebody else reads is touched.
  have hn := noted_write w d rest
  have hinflow : (w.takeOutput d rest).2.inflow = w.inflow := by
    simp only [takeOutput, hx, Option.map_some, hs]
    refine inflow_modifyConn w d fun y hy => ?_
    obtain rfl := Option.some.inj (hx.symm.trans hy)
    simp [Connection.intaking, hs, Stream.mute]
  have hready : (w.takeOutput d rest).2.ready = w.ready := by
    simp only [takeOutput, hx, Option.map_some, hs]
    rfl
  have hjournal : (w.takeOutput d rest).2.journal = w.journal := by
    simp only [takeOutput, hx, Option.map_some, hs]
    rfl
  have hconns := hn.conns.trans (congrArg Inflow.conns hinflow)
  refine .of_pipes hW ?_ (fun e => ?_) ?_ (hn.pipes.trans (congrArg Inflow.pipes hinflow)) ?_ ?_
  · exact (hn.ready.trans hready).symm ▸ List.prefix_rfl
  · rw [ends_eq, ends_eq, hconns]
  · rw [hconns]
  · rw [hn.received, hjournal]
  · intro i p hp
    -- Whoever writes into a pipe does not write into a script.
    have hfar : d ≠ p.writer := by
      rintro rfl
      obtain ⟨k, hk⟩ := hW.back (sides_eq_some hp)
      rw [ends_of_conn hx, hs] at hk
      cases hk
    rw [hn.written, hjournal, if_neg hfar, List.append_nil]

/-- A pipe takes what it can hold. If it takes something, the loop that reads from it is woken. -/
theorem takeOutput_pipes (hx : w.conns[d]? = some x) {i o : Nat} (hs : x.stream = .pipes i o)
    {p : Pipe} (hp : w.pipes[o]? = some p) (bs : List UInt8) :
    let v : Network := { w with pipes := w.pipes.modify o fun _ => (p.take bs).2 }
    (w.takeOutput d bs).1 = (p.take bs).1 ∧ Roused v (w.takeOutput d bs).2 ∧
      ((p.take bs).1.count ≠ 0 → (w.takeOutput d bs).2 = v.wakeReader p.reader) := by
  intro v
  have ht : w.takeOutput d bs =
      ((p.take bs).1, if (p.take bs).1.count = 0 then v else v.wakeReader p.reader) := by
    simp only [takeOutput, hx, Option.map_some, hs, hp]
    rfl
  rw [ht]
  refine ⟨rfl, ?_, fun h => if_neg h⟩
  dsimp only
  split
  · exact .refl v
  · exact roused_wakeReader v p.reader

/-- What one connection writes into a pipe arrives at the other one, which is woken. -/
theorem spares_write_pipe (hW : w.Wired) (hx : w.conns[d]? = some x) {i o : Nat}
    (hs : x.stream = .pipes i o) (rest : List UInt8) (c : Nat) :
    Spares c w (w.write d rest).2 := by
  have hn := noted_write w d rest
  have hends : w.ends d = some (i, o) := by
    rw [ends_of_conn hx, hs]
    rfl
  obtain ⟨a, ha⟩ := hW.writer hends
  obtain ⟨p, hp, -⟩ := Option.map_eq_some_iff.mp ha
  obtain ⟨htaken, ⟨queue, hqueue, hv⟩, hwoken⟩ := takeOutput_pipes hx hs hp rest
  rw [htaken] at hn
  let count := (p.take rest).1.count
  have hconns : (w.write d rest).2.inflow.conns = w.inflow.conns := by
    rw [hn.conns, hv]
    rfl
  have hpipes : (w.write d rest).2.pipes =
      w.pipes.modify o fun _ => { p with held := p.held ++ rest.take count } := by
    rw [hn.pipes, hv, p.take_snd rest]
  have hwritten : ∀ e, (w.write d rest).2.journal.written e =
      w.journal.written e ++ if d = e then rest.take count else [] := by
    intro e
    rw [hn.written, hv]
  have hready : w.ready <+: (w.write d rest).2.ready := by
    rw [hn.ready, hv]
    exact hqueue
  constructor
  case ready => exact hready
  case wired =>
    refine hW.same (fun e => by rw [ends_eq, ends_eq, hconns]) ?_
    intro j
    rw [sides, sides, hpipes, List.getElem?_modify]
    by_cases hj : o = j
    · subst hj
      simp [hp]
    · simp [hj]
  case conn => rw [hconns]
  case received =>
    rw [hn.received, hv]
  case pipe =>
    intro j r hr hc
    rw [hpipes, List.getElem?_modify, hr, hwritten]
    by_cases hj : o = j
    · -- It is the pipe that this connection writes into.
      have hwriter : d = r.writer := ((hW.writes hends hr).mpr hj).symm
      subst hj
      obtain rfl := Option.some.inj (hp.symm.trans hr)
      refine ⟨rest.take count, p.closed, by simp, by rw [if_pos hwriter], ?_⟩
      by_cases h0 : count = 0
      · left
        rw [h0, List.take_zero]
        exact ⟨rfl, rfl⟩
      · -- Bytes went into the pipe, so its reader is woken.
        right
        intro y s hy hs
        rw [getElem?_inflow] at hy
        obtain ⟨z, hz, rfl⟩ := Option.map_eq_some_iff.mp hy
        rw [hn.ready, hwoken h0, ← hc]
        subst hc
        exact mem_wakeReader (w := { w with pipes := _ }) hz hs
    · -- Who writes into another pipe is another connection.
      have hfar : d ≠ r.writer := fun he => hj ((hW.writes hends hr).mp he.symm)
      refine ⟨[], r.closed, by simp [hj], ?_, .inl ⟨rfl, rfl⟩⟩
      rw [if_neg hfar]

/-- Whatever a connection writes into, the others are spared. -/
theorem spares_write (hW : w.Wired) (hx : w.conns[d]? = some x) (rest : List UInt8) (c : Nat) :
    Spares c w (w.write d rest).2 := by
  cases hs : x.stream with
  | script input output => exact spares_write_script hW hx hs rest c
  | pipes incoming outgoing => exact spares_write_pipe hW hx hs rest c

/-- What follows when bytes of a message were written. -/
theorem closes_writeOn (w : Network) (d : Nat) (rest : List UInt8) :
    Closes (w.write d rest).2 (w.writeOn d rest) := by
  rw [writeOn]
  simp only
  split
  · exact closes_failWriting _ d _
  · split
    · split
      · exact closes_failWriting _ d _
      · exact closes_modifyConn _ d fun _ _ => rfl
    · exact .refl _

/-- A round of the writing loop spares the others. -/
theorem spares_writeOn (hW : w.Wired) (hx : w.conns[d]? = some x) (rest : List UInt8) (c : Nat) :
    Spares c w (w.writeOn d rest) := by
  have h := spares_write hW hx rest c
  exact h.trans ((closes_writeOn w d rest).spares h.wired c)

/-- The turn of the loop that writes of any connection. -/
theorem spares_writeLoop (hW : w.Wired) (d n c : Nat) : Spares c w (writeLoop d n w) := by
  apply writeLoop_induction (P := Spares c w)
  case abort => exact fun hs _ _ _ => hs.trans ((closes_stopWriting _ d).spares hs.wired c)
  case drain =>
    intro v x l hs _ _ _
    have hl : Closes v (v.setLink d l) := closes_modifyConn v d fun _ _ => rfl
    exact hs.trans ((hl.trans (closes_stopWriting _ d)).spares hs.wired c)
  case begin =>
    intro v x m l hs _ _ _ _
    have hb : Closes v (v.modifyConn d fun x =>
        { x with link := some l, writing := .busy m.frame }) := closes_modifyConn v d fun _ _ => rfl
    exact hs.trans (hb.spares hs.wired c)
  case goOn => exact fun hs hx _ _ => hs.trans (spares_writeOn hs.wired hx _ c)
  case h => exact .refl hW c

/-! ## Reading by another connection -/

section other

variable (hW : w.Wired) (h : d ≠ c)

include hW h

/-- Another connection changes. -/
theorem spares_modifyConn {f : Connection → Connection}
    (hf : ∀ x, w.conns[d]? = some x → (f x).stream.ends = x.stream.ends) :
    Spares c w (w.modifyConn d f) := by
  refine .of_pipes hW List.prefix_rfl (ends_modifyConn w d hf) ?_ rfl rfl fun _ _ _ => rfl
  rw [getElem?_inflow, getElem?_inflow, getElem?_modifyConn_ne w f h.symm]

/-- A reading loop that takes its input leaves the input of the others alone. -/
theorem spares_takeInput : Spares c w (w.takeInput d).2.2 := by
  rw [takeInput]
  split
  · exact .refl hW c
  · next input output hs =>
    obtain ⟨x, hx, hs⟩ := Option.map_eq_some_iff.mp hs
    refine spares_modifyConn hW h fun y hy => ?_
    obtain rfl := Option.some.inj (hx.symm.trans hy)
    rw [hs]
    rfl
  · next i o hs =>
    obtain ⟨x, hx, hs⟩ := Option.map_eq_some_iff.mp hs
    have hends : w.ends d = some (i, o) := by
      rw [ends_of_conn hx, hs]
      rfl
    split
    · exact .refl hW c
    · next p hp =>
      simp only
      split
      · exact .refl hW c
      · let v : Network := { w with pipes := w.pipes.modify i fun p => { p with held := [] } }
        have hv : Spares c w v := by
          refine ⟨List.prefix_rfl, hW.same (fun _ => rfl) fun j => ?_, rfl, rfl,
            fun {j q} hq hc => ?_⟩
          · rw [sides, sides, List.getElem?_modify]
            by_cases hj : i = j
            · subst hj
              simp [hp]
            · simp [hj]
          · -- The pipe that is emptied is read by the other connection.
            obtain ⟨b, hb⟩ := hW.reader hends
            have hj : i ≠ j := by
              rintro rfl
              have hq := (sides_eq_some hq).symm.trans hb
              exact h ((Prod.mk.inj (Option.some.inj hq)).1.symm.trans hc)
            refine ⟨[], q.closed, ?_, (List.append_nil _).symm, .inl ⟨rfl, rfl⟩⟩
            rw [List.getElem?_modify]
            simp [hj, hq]
        exact hv.trans (spares_of_inflow hv.wired (roused_wakeBusyWriter v _).ready
          (inflow_wakeBusyWriter v _) c)

/-- A reading loop that stops spares the other connections. -/
theorem spares_stopReading : Spares c w (w.stopReading d) := by
  have hstop : Spares c w (w.modifyConn d fun x => { x with reading := .stopped }) :=
    spares_modifyConn hW h fun _ _ => rfl
  refine hstop.trans (Closes.spares ?_ hstop.wired c)
  exact (closes_emit _ rfl).trans (closes_closeIfFinished _ d)

/-- So it does when it stops at the end of its stream. -/
theorem spares_endReading : Spares c w (w.endReading d) := by
  have ht := (closes_teardown w d ((w.conns[d]?).any (·.config.flushOnEnd))).spares hW c
  exact ht.trans (spares_stopReading ht.wired h)

/-- So it does when it stops at a fault. -/
theorem spares_failReading (e : ReadError) : Spares c w (w.failReading d e) := by
  have hl := spares_log hW (.protocolError e) c
  have ht := (closes_teardown _ d false).spares hl.wired c
  exact (hl.trans ht).trans (spares_stopReading ht.wired h)

/-- A message is handed on that came in over another connection. -/
theorem spares_receive (hx : w.conns[d]? = some x) (hr : x.IsReading) (m : Message) :
    Spares c w (w.receive d m) := by
  have hready := (inside_receive hx hr m).moves.ready
  cases hd : x.dispatcher with
  | none =>
    have he : w.receive d m = w := by rw [receive, hx, Option.bind_some, hd]
    rw [he]
    exact .refl hW c
  | some e =>
    have hrec : Spares c w (w.emit (.received d m)) := by
      refine .of_pipes hW List.prefix_rfl (fun _ => rfl) rfl rfl ?_ fun _ _ _ => rfl
      exact if_neg h
    exact hrec.trans (spares_of_inflow hrec.wired hready (inflow_receive hx hd m) c)

/-- The turn of the loop that reads of another connection. -/
theorem spares_readLoop : Spares c w (w.readLoop d) := by
  apply readLoop_induction (P := fun v => Spares c w v ∧ v.Reads d) (Q := Spares c w)
  case receive =>
    rintro v m ⟨hs, x, hx, hr⟩
    exact ⟨hs.trans (spares_receive hs.wired h hx hr m), Reads.receive ⟨x, hx, hr⟩ m⟩
  case fail => exact fun e hv => hv.1.trans (spares_failReading hv.1.wired h e)
  case done => exact fun hv => hv.1.trans (spares_endReading hv.1.wired h)
  case goOn => exact fun s hv => hv.1.trans (spares_modifyConn hv.1.wired h fun _ _ => rfl)
  case rest => exact .refl hW c
  case stop => exact fun _ _ _ _ _ => spares_stopReading hW h
  case take => exact fun x s hx hs hd => ⟨spares_takeInput hW h, reads_takeInput hx hs hd⟩

end other

/-! ## Turns and actions -/

/-- **The turn of any task** but the loop that reads leaves the intake of a connection alone. -/
theorem spares_perform (hW : w.Wired) {t : Task} (ht : t ≠ .reader c) :
    Spares c w (w.perform t) := by
  cases t with
  | reader d => exact spares_readLoop hW fun hd => ht (congrArg Task.reader hd)
  | writer d => exact spares_writeLoop hW d _ c
  | handler r =>
    exact spares_of_inflow hW (inside_runHandler w r).moves.ready (inflow_runHandler w r) c
  | caller k => exact spares_of_inflow hW (moves_checkCall w k).ready (inflow_checkCall w k) c

/-- Whether a number is that of a connection, or far from being given to one. -/
def IsSettled (w : Network) (c : Nat) : Prop := c < w.conns.length ∨ w.conns.length + 1 < c

/-- A settled connection stays where it is when at most two are opened. -/
theorem IsSettled.append (h : w.IsSettled c) (l : List Connection) (hl : l.length ≤ 2) :
    (w.conns ++ l)[c]? = w.conns[c]? := by
  rcases h with h | h
  · exact List.getElem?_append_left h
  · have hle : (w.conns ++ l).length ≤ c := by
      rw [List.length_append]
      omega
    rw [List.getElem?_eq_none hle, List.getElem?_eq_none (by omega)]

/-- A connection over a script is made. -/
theorem spares_openScript (hW : w.Wired) (hc : w.IsSettled c) (config : Config) :
    Spares c w (w.openScript config).2 := by
  refine .of_pipes hW List.prefix_rfl (fun e => ?_) ?_ rfl rfl fun _ _ _ => rfl
  · show ((w.conns ++ [_])[e]?).bind _ = _
    rw [ends]
    cases he : w.conns[e]? with
    | some x => rw [getElem?_append_of_some he]
    | none =>
      -- The new connection has no pipes.
      rw [Option.bind_none]
      cases hx : (w.conns ++ [({ config, stream := .script {} {} } : Connection)])[e]? with
      | none => rfl
      | some x =>
        rcases getElem?_append_one hx with hx | ⟨-, rfl⟩
        · cases he.symm.trans hx
        · rfl
  · rw [getElem?_inflow, getElem?_inflow]
    show ((w.conns ++ [_])[c]?).map _ = _
    rw [hc.append _ (by simp)]

section openPipes

variable (w : Network) (capacity : Nat) (first second : Config)

/-- Two pipes that are opened have their ends in the two connections that are opened with them. -/
theorem ends_openPipes {e i o : Nat} : (w.openPipes capacity first second).2.ends e = some (i, o) ↔
    w.ends e = some (i, o) ∨
      (e = w.conns.length ∧ i = w.pipes.length ∧ o = w.pipes.length + 1) ∨
      (e = w.conns.length + 1 ∧ i = w.pipes.length + 1 ∧ o = w.pipes.length) := by
  simp only [ends, openPipes, Option.bind_eq_some_iff, getElem?_append_two]
  constructor
  · rintro ⟨x, hx | ⟨rfl, rfl⟩ | ⟨rfl, rfl⟩, he⟩
    · exact .inl ⟨x, hx, he⟩
    · obtain ⟨rfl, rfl⟩ := Prod.mk.inj (Option.some.inj he)
      exact .inr (.inl ⟨rfl, rfl, rfl⟩)
    · obtain ⟨rfl, rfl⟩ := Prod.mk.inj (Option.some.inj he)
      exact .inr (.inr ⟨rfl, rfl, rfl⟩)
  · rintro (⟨x, hx, he⟩ | ⟨rfl, rfl, rfl⟩ | ⟨rfl, rfl, rfl⟩)
    · exact ⟨x, .inl hx, he⟩
    · exact ⟨_, .inr (.inl ⟨rfl, rfl⟩), rfl⟩
    · exact ⟨_, .inr (.inr ⟨rfl, rfl⟩), rfl⟩

/-- And these two connections are their sides. -/
theorem sides_openPipes {i a b : Nat} :
    (w.openPipes capacity first second).2.sides i = some (a, b) ↔
    w.sides i = some (a, b) ∨
      (i = w.pipes.length ∧ a = w.conns.length ∧ b = w.conns.length + 1) ∨
      (i = w.pipes.length + 1 ∧ a = w.conns.length + 1 ∧ b = w.conns.length) := by
  simp only [sides, openPipes, Option.map_eq_some_iff, getElem?_append_two]
  constructor
  · rintro ⟨p, hp | ⟨rfl, rfl⟩ | ⟨rfl, rfl⟩, hs⟩
    · exact .inl ⟨p, hp, hs⟩
    · obtain ⟨rfl, rfl⟩ := Prod.mk.inj hs
      exact .inr (.inl ⟨rfl, rfl, rfl⟩)
    · obtain ⟨rfl, rfl⟩ := Prod.mk.inj hs
      exact .inr (.inr ⟨rfl, rfl, rfl⟩)
  · rintro (⟨p, hp, hs⟩ | ⟨rfl, rfl, rfl⟩ | ⟨rfl, rfl, rfl⟩)
    · exact ⟨p, .inl hp, hs⟩
    · exact ⟨_, .inr (.inl ⟨rfl, rfl⟩), rfl⟩
    · exact ⟨_, .inr (.inr ⟨rfl, rfl⟩), rfl⟩

/-- The two new pipes lead from one new connection to the other one. -/
theorem Wired.openPipes (hW : w.Wired) : (w.openPipes capacity first second).2.Wired := by
  -- Each of the four: an old wire is kept, and each of the two new ones is crossed, the reader of
  -- one being the writer of the other.
  refine ⟨fun {e i o} he => ?_, fun {e i o} he => ?_, fun {i a b} hi => ?_, fun {i a b} hi => ?_⟩
  · simp only [sides_openPipes]
    rcases (ends_openPipes w capacity first second).mp he with
      he | ⟨rfl, rfl, rfl⟩ | ⟨rfl, rfl, rfl⟩
    · obtain ⟨b, hb⟩ := hW.reader he
      exact ⟨b, .inl hb⟩
    · exact ⟨_, .inr (.inl ⟨rfl, rfl, rfl⟩)⟩
    · exact ⟨_, .inr (.inr ⟨rfl, rfl, rfl⟩)⟩
  · simp only [sides_openPipes]
    rcases (ends_openPipes w capacity first second).mp he with
      he | ⟨rfl, rfl, rfl⟩ | ⟨rfl, rfl, rfl⟩
    · obtain ⟨a, ha⟩ := hW.writer he
      exact ⟨a, .inl ha⟩
    · exact ⟨_, .inr (.inr ⟨rfl, rfl, rfl⟩)⟩
    · exact ⟨_, .inr (.inl ⟨rfl, rfl, rfl⟩)⟩
  · simp only [ends_openPipes]
    rcases (sides_openPipes w capacity first second).mp hi with
      hi | ⟨rfl, rfl, rfl⟩ | ⟨rfl, rfl, rfl⟩
    · obtain ⟨k, hk⟩ := hW.front hi
      exact ⟨k, .inl hk⟩
    · exact ⟨_, .inr (.inl ⟨rfl, rfl, rfl⟩)⟩
    · exact ⟨_, .inr (.inr ⟨rfl, rfl, rfl⟩)⟩
  · simp only [ends_openPipes]
    rcases (sides_openPipes w capacity first second).mp hi with
      hi | ⟨rfl, rfl, rfl⟩ | ⟨rfl, rfl, rfl⟩
    · obtain ⟨k, hk⟩ := hW.back hi
      exact ⟨k, .inl hk⟩
    · exact ⟨_, .inr (.inr ⟨rfl, rfl, rfl⟩)⟩
    · exact ⟨_, .inr (.inl ⟨rfl, rfl, rfl⟩)⟩

/-- Opening two connections spares those that there are. -/
theorem spares_openPipes (hW : w.Wired) (hc : w.IsSettled c) :
    Spares c w (w.openPipes capacity first second).2 := by
  refine ⟨List.prefix_rfl, hW.openPipes w capacity first second, ?_, rfl, fun {i p} hp _ => ?_⟩
  · rw [getElem?_inflow, getElem?_inflow]
    show ((w.conns ++ [_, _])[c]?).map _ = _
    rw [hc.append _ (by simp)]
  · refine ⟨[], p.closed, ?_, (List.append_nil _).symm, .inl ⟨rfl, rfl⟩⟩
    rw [List.append_nil]
    exact getElem?_append_of_some hp _

end openPipes

/-- Another connection is connected. -/
theorem spares_joined (hW : w.Wired) (h : d ≠ c) (e : Nat) : Spares c w (w.joined d e) := by
  have hs : Spares c w (w.modifyConn d fun x => x.start e) :=
    spares_modifyConn hW h fun _ _ => rfl
  refine hs.trans (spares_of_inflow hs.wired (roused_joined w d e).ready ?_ c)
  rw [joined, inflow_wake, inflow_wake, inflow_modifyDispatcher]

/-- A connection that connects spares the others. -/
theorem spares_connect (hW : w.Wired) (h : d ≠ c) (e : Nat) : Spares c w (w.connect d e).2 := by
  rcases connect_cases w d e with ⟨x, -, -, -, -, hc⟩ | ⟨f, hc⟩ | ⟨x, -, -, -, hc⟩
  · rw [hc]
    exact spares_joined hW h e
  · rw [hc]
    exact .refl hW c
  · rw [hc]
    exact spares_modifyConn hW h fun _ _ => rfl

/-- Something becomes of the script of another connection. -/
theorem spares_modifyScript (hW : w.Wired) (h : d ≠ c) (f : Input × Output → Input × Output) :
    Spares c w (w.modifyScript d f) := by
  refine spares_modifyConn hW h fun x hx => ?_
  cases hs : x.stream with
  | script input output => rfl
  | pipes incoming outgoing => exact congrArg Stream.ends hs

/-- An attempt that may fail spares whom the success spares. -/
theorem spares_attempt (hW : w.Wired) {o : Except CallError Network}
    (h : ∀ v, o = .ok v → Spares c w v) : Spares c w (w.attempt o).2 := by
  cases o with
  | error e => exact .refl hW c
  | ok v => exact h v rfl

/-- So does one that makes something. -/
theorem spares_attemptMade (hW : w.Wired) {o : Except CallError (Nat × Network)}
    (h : ∀ n v, o = .ok (n, v) → Spares c w v) : Spares c w (w.attemptMade o).2 := by
  cases o with
  | error e => exact .refl hW c
  | ok p => exact h p.1 p.2 rfl

/-- What becomes of the output of a script has nothing to do with what comes in. -/
theorem inflow_setOutput (w : Network) (d : Nat) (output : Output) :
    (w.setOutput d output).inflow = w.inflow := by
  rw [setOutput, inflow_wakeBusyWriter, modifyScript]
  refine inflow_modifyConn w d fun x hx => ?_
  cases hs : x.stream <;> simp [Connection.intaking, Stream.mute, hs]

/-- Dropping a call puts tasks at the end of the queue. -/
theorem ready_dropCall (w : Network) (k : Nat) : w.ready <+: (w.dropCall k).ready := by
  rcases dropCall_cases w k with h | ⟨u, x, hu, -, -, -, hr⟩
  · exact ⟨[], by rw [h, List.append_nil]⟩
  · exact hu.moves.ready.trans hr.ready

/-- **An action of a user** that is not about what comes in over a connection leaves its intake
alone, unless it gives tasks their turns. -/
theorem spares_input (hW : w.Wired) (hd : d ≠ c) (f : Input × Output → Input × Output) :
    Spares c w ((w.modifyScript d f).wakeReader d) := by
  have hv := spares_modifyScript hW hd f
  exact hv.trans (spares_of_inflow hv.wired (roused_wakeReader _ d).ready (inflow_wakeReader _ d) c)

/-- What is done from outside spares a connection that it does not concern, up to the rounds of the
tasks. -/
theorem spares_act (hW : w.Wired) (hc : w.IsSettled c) {a : Action}
    (ha : a.concerns c = false) (hs : ∀ n, a ≠ .settle n) : Spares c w (w.act a).2 := by
  cases a with
  | openScript config => exact spares_openScript hW hc config
  | openPipes capacity first second => exact spares_openPipes w capacity first second hW hc
  | openDispatcher =>
    refine spares_of_inflow hW ?_ ?_ c
    · exact List.prefix_rfl
    · rfl
  | dropDispatcher e =>
    exact spares_of_inflow hW (aside_dropDispatcher w e).moves.ready (inflow_dropDispatcher w e) c
  | dropConn e => exact (closes_dropConn w e).spares hW c
  | connect e f =>
    -- Its script and its stream are its own, so the action would concern `c` if it were the one.
    have he : e ≠ c := by simpa [Action.concerns] using ha
    exact spares_connect hW he f
  | disconnect e flush => exact (closes_disconnect w e flush).spares hW c
  | feed e bytes ended =>
    have he : e ≠ c := by simpa [Action.concerns] using ha
    exact spares_input hW he _
  | fault e text =>
    have he : e ≠ c := by simpa [Action.concerns] using ha
    exact spares_input hW he _
  | setOutput e output =>
    refine spares_of_inflow hW ?_ (inflow_setOutput w e output) c
    exact (roused_wakeBusyWriter (w.modifyScript e _) e).ready
  | notify sender method params =>
    exact spares_attempt hW fun v hv =>
      spares_of_inflow hW (moves_notify hv).ready (inflow_notify hv) c
  -- What goes out over a link is bytes for nobody until a writing loop takes it up.
  | call sender method params shape =>
    exact spares_attemptMade hW fun n v hv =>
      spares_of_inflow hW (moves_call hv).ready (inflow_call hv) c
  | dropCall k => exact spares_of_inflow hW (ready_dropCall w k) (inflow_dropCall w k) c
  | advance secs => exact spares_of_inflow hW (moves_advance w secs).ready (inflow_advance w secs) c
  | openGate gate =>
    exact spares_of_inflow hW (inside_openGate w gate).moves.ready (inflow_openGate w gate) c
  | handle e method h =>
    exact spares_attempt hW fun v hv =>
      spares_of_inflow hW (aside_handle hv).moves.ready (inflow_handle hv) c
  | register e descriptor hooks =>
    exact spares_attemptMade hW fun n v hv =>
      spares_of_inflow hW (aside_register hv).moves.ready (inflow_register hv) c
  | keep e descriptor hooks =>
    refine spares_of_inflow hW ?_ ?_ c
    · exact List.prefix_rfl
    · rfl
  | unregister serial =>
    exact spares_of_inflow hW (aside_unregister w serial).moves.ready (inflow_unregister w serial) c
  | settle n => exact absurd rfl (hs n)

/-! ## The pipes of every network -/

/-- Every action leaves some numbers alone. -/
theorem exists_not_concerns (a : Action) (n : Nat) : ∃ c, n < c ∧ a.concerns c = false := by
  have far : ∀ d, n < n + d + 1 ∧ (d == n + d + 1) = false := fun d =>
    ⟨by omega, beq_eq_false_iff_ne.mpr (by omega)⟩
  cases a with
  | connect d e => exact ⟨_, far d⟩
  | feed d bytes ended => exact ⟨_, far d⟩
  | fault d text => exact ⟨_, far d⟩
  | _ => exact ⟨n + 1, Nat.lt_succ_self n, rfl⟩

/-- Wires stay when a task has its turn. -/
theorem Wired.perform (h : w.Wired) (t : Task) : (w.perform t).Wired := by
  cases t with
  | reader d => exact (spares_readLoop h (Nat.ne_of_lt d.lt_succ_self)).wired
  | writer d => exact (spares_perform (c := 0) (t := .writer d) h (by rintro ⟨⟩)).wired
  | handler r => exact (spares_perform (c := 0) (t := .handler r) h (by rintro ⟨⟩)).wired
  | caller k => exact (spares_perform (c := 0) (t := .caller k) h (by rintro ⟨⟩)).wired

/-- Wires stay when all tasks have had their turns. -/
theorem Wired.settle (h : w.Wired) (n : Nat) : (settle n w).Wired := by
  refine settle_induction h ?_ n
  intro u v hs hu
  obtain ⟨t, q, -, rfl⟩ := step_eq_some.mp hs
  have hpop : ({ u with ready := q } : Network).Wired := hu.same (fun _ => rfl) fun _ => rfl
  exact hpop.perform t

/-- Wires stay whatever is done from outside. -/
theorem Wired.act (h : w.Wired) (a : Action) : (w.act a).2.Wired := by
  by_cases hs : ∃ n, a = .settle n
  · obtain ⟨n, rfl⟩ := hs
    exact h.settle n
  · obtain ⟨c, hc, ha⟩ := exists_not_concerns a (w.conns.length + 1)
    exact (spares_act h (.inr hc) ha fun n hn => hs ⟨n, hn⟩).wired

/-- In every network that can be reached each pipe leads from one connection to another one. -/
theorem Reachable.wired (h : Reachable w) : w.Wired := by
  have h0 : ({} : Network).Wired := by
    constructor <;> intro _ _ _ h <;> cases h
  exact h.induction h0 fun a _ hv => hv.act a

end Network

end Parley

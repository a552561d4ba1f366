import Parley.Proofs.Attention
import Parley.Proofs.Inflow

/-!
# What arrives at a connection

The bytes that a connection will read come into its script from outside, or into its pipe from the
connection at the other end. Nothing else puts bytes there or takes some away, and whoever puts
bytes there, or closes the pipe, wakes the loop that reads.

- `Network.Wired`: each pipe leads from one connection to another one.
- `Network.Closes`: what at most closes pipes.
- `Network.Spares`: what leaves the intake of a connection alone, but for bytes that arrive.
- `Network.spares_perform`: the turn of any task but the loop that reads.
-/

namespace Parley

/-- The numbers of the pipes of a stream, if there are any. -/
def Stream.ends : Stream → Option (Nat × Nat)
  | .script _ _ => none
  | .pipes incoming outgoing => some (incoming, outgoing)

/-- A stream that falls silent is at the same ends of the same pipes. -/
theorem Stream.ends_mute (s : Stream) : s.mute.ends = s.ends := by
  cases s <;> rfl

/-- What is written into a pipe is the first part of the bytes, and it comes behind what is held. -/
theorem Pipe.take_snd (p : Pipe) (bs : List UInt8) :
    (p.take bs).2 = { p with held := p.held ++ bs.take (p.take bs).1.count } := by
  rw [Pipe.take]
  split
  · simp
  · rfl

namespace Journal

/-- The errors with which loops failed to read, the latest first. -/
def faults : Journal → List ReadError
  | [] => []
  | .logged (.protocolError e) :: j => e :: faults j
  | _ :: j => faults j

section filter

variable (c : Nat) (j : Journal)

/-- Without the quiet events a connection has received the same messages. -/
theorem received_filter : received c (j.filter Event.isInflow) = received c j := by
  induction j with
  | nil => rfl
  | cons e j ih =>
    cases e with
    | logged l => cases l <;> exact ih
    | received d m =>
      show received c (.received d m :: List.filter Event.isInflow j) = _
      rw [received, received, ih]
    | _ => exact ih

/-- It has written the same bytes. -/
theorem written_filter : written c (j.filter Event.isInflow) = written c j := by
  induction j with
  | nil => rfl
  | cons e j ih =>
    cases e with
    | logged l => cases l <;> exact ih
    | wrote d bs =>
      show written c (.wrote d bs :: List.filter Event.isInflow j) = _
      rw [written, written, ih]
    | _ => exact ih

/-- And it has seen the same faults. -/
theorem faults_filter : faults (j.filter Event.isInflow) = faults j := by
  induction j with
  | nil => rfl
  | cons e j ih =>
    cases e with
    | logged l =>
      cases l with
      | protocolError e => exact congrArg (e :: ·) ih
      | _ => exact ih
    | _ => exact ih

end filter

end Journal

namespace Network

variable {u v w w' : Network} {c d : Nat}

/-- Moves put tasks at the end of the queue and take none out of it. -/
theorem Moves.ready (h : Moves w w') : w.ready <+: w'.ready := by
  induction h with
  | refl => exact List.prefix_rfl
  | tail _ hm ih => exact ih.trans hm.tends.ready

/-- A reader that waits for bytes is in the queue once it has been woken. -/
theorem mem_wakeReader {x : Connection} {s : Frame.Intake} (hx : w.conns[c]? = some x)
    (hr : x.reading = .running s) : .reader c ∈ (w.wakeReader c).ready := by
  rw [wakeReader, hx, Option.map_some, hr]
  exact mem_wake w _

/-! ## Pipes between connections -/

/-- The numbers of the pipes of a connection. -/
def ends (w : Network) (c : Nat) : Option (Nat × Nat) := (w.conns[c]?).bind (·.stream.ends)

/-- The connections that read from a pipe and write into it. -/
def sides (w : Network) (i : Nat) : Option (Nat × Nat) :=
  (w.pipes[i]?).map fun p => (p.reader, p.writer)

/-- Each pipe leads from one connection to another one. -/
structure Wired (w : Network) : Prop where
  reader : ∀ {c i o : Nat}, w.ends c = some (i, o) → ∃ b, w.sides i = some (c, b)
  writer : ∀ {c i o : Nat}, w.ends c = some (i, o) → ∃ a, w.sides o = some (a, c)
  front : ∀ {i a b : Nat}, w.sides i = some (a, b) → ∃ k, w.ends a = some (i, k)
  back : ∀ {i a b : Nat}, w.sides i = some (a, b) → ∃ k, w.ends b = some (k, i)

/-- Wires depend on the ends that the connections hold and on the sides that the pipes name. -/
theorem Wired.same (h : w.Wired) (he : ∀ c, w'.ends c = w.ends c)
    (hs : ∀ i, w'.sides i = w.sides i) : w'.Wired := by
  constructor
  case reader =>
    intro c i o hc
    rw [he] at hc
    rw [hs]
    exact h.reader hc
  case writer =>
    intro c i o hc
    rw [he] at hc
    rw [hs]
    exact h.writer hc
  case front =>
    intro i a b hi
    rw [hs] at hi
    rw [he]
    exact h.front hi
  case back =>
    intro i a b hi
    rw [hs] at hi
    rw [he]
    exact h.back hi

/-- A connection keeps its pipes when it changes otherwise. -/
theorem ends_modifyConn (w : Network) (c : Nat) {f : Connection → Connection}
    (hf : ∀ x, w.conns[c]? = some x → (f x).stream.ends = x.stream.ends) (d : Nat) :
    (w.modifyConn c f).ends d = w.ends d := by
  rw [ends, ends]
  by_cases hd : d = c
  · subst hd
    rw [getElem?_modifyConn_self]
    cases hx : w.conns[d]? with
    | none => rfl
    | some x => exact hf x hx
  · rw [getElem?_modifyConn_ne w f hd]

theorem getElem?_inflow (w : Network) (c : Nat) :
    w.inflow.conns[c]? = (w.conns[c]?).map Connection.intaking :=
  List.getElem?_map

/-- The ends of a connection are seen in the inflow. -/
theorem ends_eq (w : Network) (c : Nat) :
    w.ends c = (w.inflow.conns[c]?).bind (·.stream.ends) := by
  rw [getElem?_inflow, ends]
  cases w.conns[c]? with
  | none => rfl
  | some x => exact (Stream.ends_mute x.stream).symm

/-- A pipe that is there has its two sides. -/
theorem sides_eq_some {i : Nat} {p : Pipe} (hp : w.pipes[i]? = some p) :
    w.sides i = some (p.reader, p.writer) := by
  rw [sides, hp]
  rfl

/-- A pipe that leads from a connection is the one that the connection writes into. -/
theorem Wired.writes (hW : w.Wired) {i o : Nat} (he : w.ends c = some (i, o))
    {j : Nat} {p : Pipe} (hp : w.pipes[j]? = some p) : p.writer = c ↔ o = j := by
  constructor
  · rintro rfl
    obtain ⟨k, hk⟩ := hW.back (sides_eq_some hp)
    exact (Prod.mk.inj (Option.some.inj (he.symm.trans hk))).2
  · rintro rfl
    obtain ⟨a, ha⟩ := hW.writer he
    exact (Prod.mk.inj (Option.some.inj ((sides_eq_some hp).symm.trans ha))).2

/-- A pipe that leads to a connection is the one that the connection reads from. -/
theorem Wired.reads (hW : w.Wired) {i o : Nat} (he : w.ends c = some (i, o))
    {j : Nat} {p : Pipe} (hp : w.pipes[j]? = some p) : p.reader = c ↔ i = j := by
  constructor
  · rintro rfl
    obtain ⟨k, hk⟩ := hW.front (sides_eq_some hp)
    exact (Prod.mk.inj (Option.some.inj (he.symm.trans hk))).1
  · rintro rfl
    obtain ⟨b, hb⟩ := hW.reader he
    exact (Prod.mk.inj (Option.some.inj ((sides_eq_some hp).symm.trans hb))).1

section journal

variable (h : w'.inflow.journal = w.inflow.journal)

include h

/-- The messages received are read off the inflow. -/
theorem received_of_inflow (c : Nat) : w'.journal.received c = w.journal.received c := by
  rw [← Journal.received_filter c w'.journal, ← Journal.received_filter c w.journal]
  exact congrArg (Journal.received c) h

/-- The bytes written are read off the inflow. -/
theorem written_of_inflow (c : Nat) : w'.journal.written c = w.journal.written c := by
  rw [← Journal.written_filter c w'.journal, ← Journal.written_filter c w.journal]
  exact congrArg (Journal.written c) h

/-- The faults are read off the inflow. -/
theorem faults_of_inflow : w'.journal.faults = w.journal.faults := by
  rw [← Journal.faults_filter w'.journal, ← Journal.faults_filter w.journal]
  exact congrArg Journal.faults h

end journal

/-! ## What at most closes pipes -/

/-- The loop that reads of a connection is in the queue, if it is running. -/
def Alerts (w w' : Network) (c : Nat) : Prop :=
  ∀ x s, w.inflow.conns[c]? = some x → x.reading = .running s → .reader c ∈ w'.ready

/-- What closes pipes and wakes who reads from them, and changes nothing else that has to do with
what comes in. -/
structure Closes (w w' : Network) : Prop where
  ready : w.ready <+: w'.ready
  conns : w'.inflow.conns = w.inflow.conns
  journal : w'.inflow.journal = w.inflow.journal
  sides : ∀ i, w'.sides i = w.sides i
  pipe : ∀ {i : Nat} {p : Pipe}, w.pipes[i]? = some p →
    ∃ closed, w'.pipes[i]? = some { p with closed := closed } ∧
      (closed = p.closed ∨ Alerts w w' p.reader)

namespace Closes

/-- What has nothing to do with what comes in. -/
theorem of_inflow (hr : w.ready <+: w'.ready) (h : w'.inflow = w.inflow) : Closes w w' := by
  have hp : w'.pipes = w.pipes := congrArg Inflow.pipes h
  refine ⟨hr, congrArg Inflow.conns h, congrArg Inflow.journal h, fun i => ?_,
    fun {i p} hi => ⟨p.closed, ?_, .inl rfl⟩⟩
  · rw [Network.sides, Network.sides, hp]
  · rwa [hp]

theorem refl (w : Network) : Closes w w := of_inflow List.prefix_rfl rfl

theorem trans (h : Closes u v) (h' : Closes v w) : Closes u w := by
  refine ⟨h.ready.trans h'.ready, h'.conns.trans h.conns, h'.journal.trans h.journal,
    fun i => (h'.sides i).trans (h.sides i), fun {i p} hp => ?_⟩
  obtain ⟨b, hb, hw⟩ := h.pipe hp
  obtain ⟨b', hb', hw'⟩ := h'.pipe hb
  refine ⟨b', hb', ?_⟩
  rcases hw' with rfl | hw'
  · exact hw.imp_right fun ha x s hx hs => h'.ready.subset (ha x s hx hs)
  · refine .inr fun x s hx hs => hw' x s ?_ hs
    rwa [h.conns]

end Closes

/-- A pipe that closes wakes the one who reads from it, if that one still reads; nothing else
happens to its bytes. -/
theorem closes_closePipe (w : Network) (i : Nat) : Closes w (w.closePipe i) := by
  cases hp : w.pipes[i]? with
  | none =>
    rw [closePipe, hp]
    exact .refl w
  | some p =>
    let v : Network := { w with pipes := w.pipes.modify i fun x => { x with closed := true } }
    have he : w.closePipe i = (v.wakeReader p.reader).wakeBusyWriter p.writer := by
      rw [closePipe, hp]
    have hinflow : (w.closePipe i).inflow = v.inflow := by
      rw [he, inflow_wakeBusyWriter, inflow_wakeReader]
    have hconns : (w.closePipe i).inflow.conns = v.inflow.conns := congrArg Inflow.conns hinflow
    have hpipes : (w.closePipe i).pipes = v.pipes := congrArg Inflow.pipes hinflow
    have hjournal : (w.closePipe i).inflow.journal = v.inflow.journal :=
      congrArg Inflow.journal hinflow
    -- Pipe by pipe: the one that closes keeps all but its flag.
    refine ⟨(moves_closePipe w i).ready, hconns, hjournal, fun j => ?_, fun {j q} hq => ?_⟩
    · rw [sides, sides, hpipes, List.getElem?_modify]
      cases w.pipes[j]? with
      | none => rfl
      | some q => by_cases hj : i = j <;> simp [hj]
    · rw [hpipes, List.getElem?_modify, hq]
      by_cases hj : i = j
      · subst hj
        obtain rfl := Option.some.inj (hp.symm.trans hq)
        -- Its reader is the one task that has to be woken, since it may wait for bytes that will
        -- never come.
        refine ⟨true, by simp, .inr fun x s hx hs => ?_⟩
        rw [getElem?_inflow] at hx
        obtain ⟨y, hy, rfl⟩ := Option.map_eq_some_iff.mp hx
        have hm : .reader p.reader ∈ (v.wakeReader p.reader).ready := mem_wakeReader hy hs
        rw [he]
        exact (roused_wakeBusyWriter _ _).ready.subset hm
      · exact ⟨q.closed, by simp [hj], .inl rfl⟩

/-- A connection that lets go of its stream closes the pipes behind it. -/
theorem closes_dropStream (w : Network) (c : Nat) : Closes w (w.dropStream c) := by
  rw [dropStream]
  split
  · exact (closes_closePipe w _).trans (closes_closePipe _ _)
  · exact .refl w

/-- What changes of a connection without its intake closes nothing. -/
theorem closes_modifyConn (w : Network) (c : Nat) {f : Connection → Connection}
    (hf : ∀ x, w.conns[c]? = some x → (f x).intaking = x.intaking) :
    Closes w (w.modifyConn c f) :=
  .of_inflow List.prefix_rfl (inflow_modifyConn w c hf)

/-- An event that is not of the inflow closes nothing. -/
theorem closes_emit (w : Network) {e : Event} (he : e.isInflow = false) : Closes w (w.emit e) :=
  .of_inflow List.prefix_rfl (inflow_emit w he)

/-- A connection that has finished only lets go of its stream. -/
theorem closes_closeIfFinished (w : Network) (c : Nat) : Closes w (w.closeIfFinished c) := by
  rw [closeIfFinished]
  split
  · refine Closes.trans ?_ (closes_dropStream _ _)
    exact closes_modifyConn w c fun _ _ => rfl
  · exact .refl w

/-- A writing loop that stops only lets go of its half. -/
theorem closes_stopWriting (w : Network) (c : Nat) : Closes w (w.stopWriting c) := by
  have hstop : Closes w (w.modifyConn c Connection.stopWriting) :=
    closes_modifyConn w c fun _ _ => rfl
  refine (((hstop.trans ?_).trans (closes_emit _ rfl)).trans (closes_emit _ rfl)).trans
    (closes_closeIfFinished _ _)
  split
  · exact closes_closePipe _ _
  · exact .refl _

/-- A cut touches no pipe by itself. -/
theorem closes_teardown (w : Network) (c : Nat) (flush : Bool) : Closes w (w.teardown c flush) :=
  .of_inflow (moves_teardown w c flush).ready (inflow_teardown w c flush)

/-- A connection that is used no more only lets go of what it holds. -/
theorem closes_dropUnused (w : Network) (c : Nat) : Closes w (w.dropUnused c) :=
  ((closes_emit w rfl).trans (closes_emit _ rfl)).trans (closes_dropStream _ _)

/-- Disconnecting touches nothing but pipes. -/
theorem closes_disconnect (w : Network) (c : Nat) (flush : Bool) :
    Closes w (w.disconnect c flush) := by
  rw [disconnect]
  split
  · refine Closes.trans ?_ (closes_dropUnused _ _)
    exact closes_modifyConn w c fun _ _ => rfl
  · exact closes_teardown w c flush

/-- Dropping a connection touches nothing but pipes. -/
theorem closes_dropConn (w : Network) (c : Nat) : Closes w (w.dropConn c) :=
  closes_disconnect w c false

/-- A fault in writing cuts the connection, and that touches nothing but pipes. -/
theorem closes_failWriting (w : Network) (c : Nat) (text : String) :
    Closes w (w.failWriting c text) :=
  (((closes_emit w rfl).trans (closes_teardown _ c false)).trans (closes_emit _ rfl)).trans
    (closes_stopWriting _ c)

/-! ## What leaves the intake of a connection alone -/

/-- What leaves the intake of a connection alone, but for bytes that arrive in its pipe. When some
do, or the pipe is closed, its loop that reads is woken. -/
structure Spares (c : Nat) (w w' : Network) : Prop where
  ready : w.ready <+: w'.ready
  wired : w'.Wired
  conn : w'.inflow.conns[c]? = w.inflow.conns[c]?
  received : w'.journal.received c = w.journal.received c
  pipe : ∀ {i : Nat} {p : Pipe}, w.pipes[i]? = some p → p.reader = c →
    ∃ arrived closed,
      w'.pipes[i]? = some { p with held := p.held ++ arrived, closed := closed } ∧
      w'.journal.written p.writer = w.journal.written p.writer ++ arrived ∧
      (arrived = [] ∧ closed = p.closed ∨ Alerts w w' c)

namespace Spares

theorem trans (h : Spares c u v) (h' : Spares c v w) : Spares c u w := by
  refine ⟨h.ready.trans h'.ready, h'.wired, h'.conn.trans h.conn, h'.received.trans h.received,
    fun {i p} hp hc => ?_⟩
  obtain ⟨a, b, hv, hj, ha⟩ := h.pipe hp hc
  obtain ⟨a', b', hw, hj', ha'⟩ := h'.pipe hv hc
  refine ⟨a ++ a', b', ?_, ?_, ?_⟩
  · rw [hw]
    simp
  · rw [hj', hj, List.append_assoc]
  · rcases ha' with ⟨rfl, rfl⟩ | ha'
    · rw [List.append_nil]
      exact ha.imp_right fun ha x s hx hs => h'.ready.subset (ha x s hx hs)
    · refine .inr fun x s hx hs => ha' x s ?_ hs
      rwa [h.conn]

/-- What leaves all pipes and what was read alone. -/
theorem of_pipes (hW : w.Wired) (hr : w.ready <+: w'.ready) (he : ∀ d, w'.ends d = w.ends d)
    (hc : w'.inflow.conns[c]? = w.inflow.conns[c]?) (hp : w'.pipes = w.pipes)
    (hrec : w'.journal.received c = w.journal.received c)
    (hwr : ∀ (i : Nat) (p : Pipe), w.pipes[i]? = some p →
      w'.journal.written p.writer = w.journal.written p.writer) : Spares c w w' := by
  refine ⟨hr, hW.same he fun i => ?_, hc, hrec, fun {i p} hi _ => ⟨[], p.closed, ?_, ?_, ?_⟩⟩
  · rw [sides, sides, hp]
  · rw [hp, hi, List.append_nil]
  · rw [hwr i p hi, List.append_nil]
  · exact .inl ⟨rfl, rfl⟩

end Spares

/-- Closing pipes spares every connection: bytes that are on their way stay on it. -/
theorem Closes.spares (h : Closes w w') (hW : w.Wired) (c : Nat) : Spares c w w' := by
  have hends : ∀ d, w'.ends d = w.ends d := fun d => by rw [ends_eq, ends_eq, h.conns]
  refine ⟨h.ready, hW.same hends h.sides, by rw [h.conns], received_of_inflow h.journal c,
    fun {i p} hi hc => ?_⟩
  obtain ⟨b, hb, ha⟩ := h.pipe hi
  refine ⟨[], b, ?_, ?_, ?_⟩
  · rw [hb, List.append_nil]
  · rw [written_of_inflow h.journal, List.append_nil]
  · subst hc
    exact ha.imp_left fun hb => ⟨rfl, hb⟩

theorem Spares.refl (hW : w.Wired) (c : Nat) : Spares c w w := (Closes.refl w).spares hW c

/-- What has nothing to do with what comes in. -/
theorem spares_of_inflow (hW : w.Wired) (hr : w.ready <+: w'.ready) (h : w'.inflow = w.inflow)
    (c : Nat) : Spares c w w' :=
  (Closes.of_inflow hr h).spares hW c

end Network

end Parley

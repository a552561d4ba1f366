import Parley.Proofs.Arrival

/-!
# What is released

A loop that stops drops its half of the stream, and a connection that is closed has dropped both
halves. A pipe is closed when nobody writes into it any more or nobody reads from it: when the loop
that writes into it has stopped, or when the connection at one of its ends is closed.

- `Connection.Halts`: which loops of a connection have stopped, and whether it is closed.
- `Network.Continues`: what stops no loop, closes no connection and closes no pipe.
- `Network.Released`: the invariant; `Released.continues` says that it depends on nothing else.
- `Network.Stops`: what stops releases something; `Released.stopReading`, `Released.stopWriting`,
  `Released.close`: the ways to stop.
-/

namespace Parley

namespace Connection

/-- Which loops of a connection have stopped, and whether it is closed. -/
structure Halts where
  reading : Bool
  writing : Bool
  closed : Bool
  deriving DecidableEq

def halts (x : Connection) : Halts :=
  ⟨decide (x.reading = .stopped), decide (x.writing = .stopped), decide (x.phase = .closed)⟩

/-- What a connection has stopped doing depends on its loops and its phase only. -/
theorem halts_congr {x y : Connection} (hr : y.reading = .stopped ↔ x.reading = .stopped)
    (hw : y.writing = .stopped ↔ x.writing = .stopped)
    (hp : y.phase = .closed ↔ x.phase = .closed) : y.halts = x.halts := by
  simp only [halts, hr, hw, hp]

/-- Whether nothing more will be written. -/
def Halts.isMute (h : Halts) : Bool := h.writing || h.closed

end Connection

/-- Whether a pipe is closed, and which connections it joins. -/
def Pipe.door (p : Pipe) : Bool × Nat × Nat := (p.closed, p.reader, p.writer)

/-- A pipe after a connection has dropped the half of its stream that writes, or the one that reads,
or both. -/
def Pipe.shut (c : Nat) (writing reading : Bool) (p : Pipe) : Pipe :=
  { p with
    closed := p.closed || writing && decide (p.writer = c) || reading && decide (p.reader = c) }

namespace Network

open Connection (Halts)

variable {u v w w' : Network} {c : Nat} {x : Connection}

/-! ## The journal grows -/

/-- A move takes nothing in the journal back. -/
theorem Move.suffix (h : Move w w') : w.journal <:+ w'.journal := by
  cases h with
  | @finish r y outcome =>
    rw [concluded]
    cases y.id with
    | none => exact List.suffix_cons _ _
    | some id => exact (List.suffix_cons _ _).trans (List.suffix_append _ _)
  | @callLate _ l x params =>
    have hbegun : w.journal <:+ (w.begun x l params).journal := List.suffix_append [_, _] _
    exact (hbegun.trans (List.suffix_append _ _)).trans (List.suffix_cons _ _)
  | expire => exact (List.suffix_append _ _).trans (List.suffix_cons _ _)
  | refuse => exact (List.suffix_append [_, _] _).trans (List.suffix_append _ _)
  | call | forward | serve => exact List.suffix_append [_, _] _
  | notify | turn => exact List.suffix_append _ _
  | remark | learn | lose | answer | strand | receive | spawn | cut => exact List.suffix_cons _ _
  | _ => exact List.suffix_rfl

/-- Nothing that was written down is struck out. -/
theorem Moves.suffix (h : Moves w w') : w.journal <:+ w'.journal := by
  induction h with
  | refl => exact List.suffix_rfl
  | tail _ hm ih => exact ih.trans hm.suffix

/-! ## What stops nothing -/

def halts (w : Network) (c : Nat) : Option Halts := (w.conns[c]?).map Connection.halts

/-- What a connection has stopped is told by the connection. -/
theorem halts_of_conn (hx : w.conns[c]? = some x) : w.halts c = some x.halts := by
  rw [halts, hx, Option.map_some]

/-- A connection that changes has stopped what it has stopped after the change. -/
theorem halts_modifyConn_self (f : Connection → Connection) (hx : w.conns[c]? = some x) :
    (w.modifyConn c f).halts c = some (f x).halts := by
  rw [halts, getElem?_modifyConn_self, hx]
  rfl

/-- The others have stopped what they had. -/
theorem halts_modifyConn_ne {d : Nat} (f : Connection → Connection) (h : d ≠ c) :
    (w.modifyConn c f).halts d = w.halts d := by
  rw [halts, getElem?_modifyConn_ne w f h, halts]

/-- The loops go on, no connection is closed, and no pipe. -/
structure Continues (w w' : Network) : Prop where
  halts : ∀ c, w'.halts c = w.halts c
  ends : ∀ c, w'.ends c = w.ends c
  pipes : ∀ i : Nat, (w'.pipes[i]?).map Pipe.door = (w.pipes[i]?).map Pipe.door
  journal : w.journal <:+ w'.journal

namespace Continues

theorem refl (w : Network) : Continues w w :=
  ⟨fun _ => rfl, fun _ => rfl, fun _ => rfl, List.suffix_rfl⟩

theorem trans (h : Continues u v) (h' : Continues v w) : Continues u w :=
  ⟨fun c => (h'.halts c).trans (h.halts c), fun c => (h'.ends c).trans (h.ends c),
    fun i => (h'.pipes i).trans (h.pipes i), h.journal.trans h'.journal⟩

/-- Waking somebody stops nobody. -/
theorem roused (h : Roused w w') : Continues w w' := by
  obtain ⟨q, -, rfl⟩ := h
  exact ⟨fun _ => rfl, fun _ => rfl, fun _ => rfl, List.suffix_rfl⟩

/-- What is written down stops nobody. -/
theorem emit (w : Network) (e : Event) : Continues w (w.emit e) :=
  ⟨fun _ => rfl, fun _ => rfl, fun _ => rfl, List.suffix_cons _ _⟩

/-- A change of a connection that stops nothing and keeps the stream. -/
theorem modifyConn (w : Network) (c : Nat) {f : Connection → Connection}
    (hf : ∀ x, w.conns[c]? = some x → (f x).halts = x.halts)
    (he : ∀ x, w.conns[c]? = some x → (f x).stream.ends = x.stream.ends) :
    Continues w (w.modifyConn c f) := by
  refine ⟨?_, ends_modifyConn w c he, fun _ => rfl, List.suffix_rfl⟩
  intro d
  by_cases hd : d = c
  · subst hd
    cases hx : w.conns[d]? with
    | none => rw [Network.modifyConn, modify_eq_of_none hx]
    | some x => rw [halts_modifyConn_self f hx, halts_of_conn hx, hf x hx]
  · exact halts_modifyConn_ne f hd

/-- What leaves the loops and the pipes alone. -/
theorem of_loops (hj : w.journal <:+ w'.journal) (hl : w'.loops = w.loops)
    (hp : w'.pipes = w.pipes) : Continues w w' := by
  have halts_eq : ∀ (v : Network) (c : Nat), v.halts c = (v.loops[c]?).map Connection.halts := by
    intro v c
    rw [Network.halts, loops, List.getElem?_map, Option.map_map]
    rfl
  have ends_eq : ∀ (v : Network) (c : Nat), v.ends c = (v.loops[c]?).bind (·.stream.ends) := by
    intro v c
    rw [Network.ends, loops, List.getElem?_map, Option.bind_map]
    rfl
  refine ⟨fun c => ?_, fun c => ?_, fun i => by rw [hp], hj⟩
  · rw [halts_eq, halts_eq, hl]
  · rw [ends_eq, ends_eq, hl]

/-- What the tasks do inside a network stops nothing, as long as the pipes are left alone. -/
theorem inside (h : Inside w w') (hp : w'.pipes = w.pipes) : Continues w w' :=
  of_loops h.moves.suffix h.loops hp

end Continues

/-! ## The invariant -/

/-- The loop that writes over a connection has stopped, or it will never begin. -/
def isMute (w : Network) (c : Nat) : Bool := (w.halts c).any Halts.isMute

/-- A connection is closed. -/
def isClosed (w : Network) (c : Nat) : Bool := (w.halts c).any Halts.closed

/-- What is dropped of a stream is marked in the journal: a half whose loop has stopped, and both
halves of a connection that is closed. -/
structure Marked (w : Network) (c : Nat) (h : Halts) : Prop where
  reader : h.reading = true → .stream c .readerDropped ∈ w.journal
  writer : h.writing = true →
    .stream c .shutdown ∈ w.journal ∧ .stream c .writerDropped ∈ w.journal
  both : h.closed = true →
    .stream c .readerDropped ∈ w.journal ∧ .stream c .writerDropped ∈ w.journal

/-- What was marked stays marked. -/
theorem Marked.suffix {h : Halts} (hm : w.Marked c h) (hj : w.journal <:+ w'.journal) :
    w'.Marked c h :=
  ⟨fun hr => hj.subset (hm.reader hr), fun hw => (hm.writer hw).imp (hj.subset ·) (hj.subset ·),
    fun hb => (hm.both hb).imp (hj.subset ·) (hj.subset ·)⟩

/-- What is not needed any more is released: halves of streams, and pipes. -/
structure Released (w : Network) : Prop where
  wired : w.Wired
  marks : ∀ {c : Nat} {h : Halts}, w.halts c = some h → w.Marked c h
  pipe : ∀ {i : Nat} {p : Pipe}, w.pipes[i]? = some p →
    (p.closed = true ↔ w.isMute p.writer = true ∨ w.isClosed p.reader = true)

/-- Whatever stops nothing keeps the account of what is released. -/
theorem Released.continues (h : w.Released) (hc : Continues w w') : w'.Released := by
  constructor
  case wired =>
    -- The sides of a pipe are part of its door, and doors stay as they are.
    refine h.wired.same hc.ends ?_
    intro i
    have hsides : ∀ v : Network, v.sides i = ((v.pipes[i]?).map Pipe.door).map Prod.snd := by
      intro v
      rw [Network.sides, Option.map_map]
      rfl
    rw [hsides, hsides, hc.pipes]
  case marks =>
    intro c hs hh
    rw [hc.halts] at hh
    exact (h.marks hh).suffix hc.journal
  case pipe =>
    intro i p' hp
    have hd := hc.pipes i
    rw [hp, Option.map_some] at hd
    obtain ⟨p, hp, he⟩ := Option.map_eq_some_iff.mp hd.symm
    obtain ⟨hclosed, hsides⟩ := Prod.mk.inj he
    obtain ⟨hreader, hwriter⟩ := Prod.mk.inj hsides
    rw [← hclosed, ← hreader, ← hwriter, isMute, isClosed, hc.halts, hc.halts]
    exact h.pipe hp

/-! ## Pipes that are closed -/

section pipes

variable {i o : Nat} {p : Pipe}

/-- Closing a pipe changes nothing but the pipe and the queue. -/
theorem closePipe_eq (w : Network) (i : Nat) : w.closePipe i =
    { w with
      pipes := w.pipes.modify i fun p => { p with closed := true }
      ready := (w.closePipe i).ready } := by
  cases hp : w.pipes[i]? with
  | none => rw [closePipe, hp, modify_eq_of_none hp]
  | some p =>
    simp only [closePipe, hp]
    rw [wakeBusyWriter_eq, wakeReader_eq]

/-- A pipe that is closed has the ends that it had. -/
theorem ends_closePipe (w : Network) (i d : Nat) : (w.closePipe i).ends d = w.ends d := by
  rw [closePipe_eq]
  rfl

/-- Closing a pipe is closing that one and no other. -/
theorem pipes_closePipe {f : Pipe → Pipe} (hf : ∀ {j : Nat} {p : Pipe}, w.pipes[j]? = some p →
    f p = if i = j then { p with closed := true } else p) :
    (w.closePipe i).pipes = w.pipes.map f := by
  rw [closePipe_eq]
  refine List.ext_getElem? fun j => ?_
  rw [List.getElem?_modify, List.getElem?_map]
  cases hp : w.pipes[j]? with
  | none => rfl
  | some p =>
    rw [Option.map_some, hf hp]
    by_cases hj : i = j
    · simp [hj]
    · simp [hj]

/-- A connection closes the pipe that it writes into. -/
theorem pipes_closePipe_outgoing (hW : w.Wired) (he : w.ends c = some (i, o)) :
    (w.closePipe o).pipes = w.pipes.map (Pipe.shut c true false) := by
  refine pipes_closePipe ?_
  intro j p hp
  by_cases hj : o = j
  · simp [Pipe.shut, hj, (hW.writes he hp).mpr hj]
  · simp [Pipe.shut, hj, mt (hW.writes he hp).mp hj]

/-- A connection closes the pipe that it reads from. -/
theorem pipes_closePipe_incoming (hW : w.Wired) (he : w.ends c = some (i, o)) :
    (w.closePipe i).pipes = w.pipes.map (Pipe.shut c false true) := by
  refine pipes_closePipe ?_
  intro j p hp
  by_cases hj : i = j
  · simp [Pipe.shut, hj, (hW.reads he hp).mpr hj]
  · simp [Pipe.shut, hj, mt (hW.reads he hp).mp hj]

/-- A connection over pipes knows them. -/
theorem ends_of_stream (hs : (w.conns[c]?).map Connection.stream = some (.pipes i o)) :
    w.ends c = some (i, o) := by
  obtain ⟨x, hx, hs⟩ := Option.map_eq_some_iff.mp hs
  rw [ends_of_conn hx, hs, Stream.ends]

/-- A connection that holds no pipes has no ends. -/
theorem ends_of_no_pipes
    (hs : ∀ i o, (w.conns[c]?).map Connection.stream = some (.pipes i o) → False) :
    w.ends c = none := by
  rw [ends]
  cases hx : w.conns[c]? with
  | none => rfl
  | some x =>
    cases hy : x.stream with
    | script input output => rw [Option.bind_some, hy, Stream.ends]
    | pipes i o => exact absurd (by rw [hx, Option.map_some, hy]) (hs i o)

/-- A connection without pipes is at no end of a pipe. -/
theorem map_shut_of_no_ends (hW : w.Wired) (he : w.ends c = none) (writing reading : Bool) :
    w.pipes.map (Pipe.shut c writing reading) = w.pipes := by
  refine (List.map_congr_left fun p hp => ?_).trans (List.map_id' w.pipes)
  obtain ⟨j, hj⟩ := List.getElem?_of_mem hp
  have hwriter : p.writer ≠ c := by
    rintro rfl
    obtain ⟨k, hk⟩ := hW.back (sides_eq_some hj)
    cases he.symm.trans hk
  have hreader : p.reader ≠ c := by
    rintro rfl
    obtain ⟨k, hk⟩ := hW.front (sides_eq_some hj)
    cases he.symm.trans hk
  simp [Pipe.shut, hwriter, hreader]

/-- A connection drops both halves of its stream. -/
theorem pipes_dropStream (hW : w.Wired) (c : Nat) :
    (w.dropStream c).pipes = w.pipes.map (Pipe.shut c true true) := by
  rw [dropStream]
  split
  · next i o hs =>
    have he := ends_of_stream hs
    have hW' : (w.closePipe o).Wired := ((closes_closePipe w o).spares hW 0).wired
    rw [pipes_closePipe_incoming hW' ((ends_closePipe w o c).trans he),
      pipes_closePipe_outgoing hW he, List.map_map]
    refine List.map_congr_left fun p _ => ?_
    simp [Pipe.shut]
  · next hs => exact (map_shut_of_no_ends hW (ends_of_no_pipes hs) true true).symm

/-- A shut pipe has its sides. -/
theorem sides_map_shut (writing reading : Bool)
    (hp : w'.pipes = w.pipes.map (Pipe.shut c writing reading)) (j : Nat) :
    w'.sides j = w.sides j := by
  rw [sides, sides, hp, List.getElem?_map, Option.map_map]
  rfl

/-- Letting go of a stream is nothing to connections and journal. -/
theorem dropStream_rest (w : Network) (c : Nat) :
    (w.dropStream c).conns = w.conns ∧ (w.dropStream c).journal = w.journal := by
  rw [dropStream]
  split
  · rw [closePipe_eq, closePipe_eq]
    exact ⟨rfl, rfl⟩
  · exact ⟨rfl, rfl⟩

end pipes

/-! ## What stops -/

/-- Loops of a connection may stop, and it may be closed. What is dropped then is marked, and its
pipes are closed if nothing will be written into them any more, or read from them. -/
structure Stops (w w' : Network) (c : Nat) (h : Halts) (writing reading : Bool) : Prop where
  self : w'.halts c = some h
  others : ∀ d, d ≠ c → w'.halts d = w.halts d
  ends : ∀ d, w'.ends d = w.ends d
  journal : w.journal <:+ w'.journal
  marked : w'.Marked c h
  isMute : h.isMute = (w.isMute c || writing)
  closed : h.closed = (w.isClosed c || reading)
  pipes : w'.pipes = w.pipes.map (Pipe.shut c writing reading)

namespace Released

/-- A connection that stops something keeps the account, once its pipes are shut accordingly. -/
theorem stops (hR : w.Released) {h : Halts} {writing reading : Bool}
    (hs : Stops w w' c h writing reading) : w'.Released := by
  constructor
  case wired => exact hR.wired.same hs.ends (sides_map_shut _ _ hs.pipes)
  case marks =>
    intro d k hk
    by_cases hd : d = c
    · subst hd
      obtain rfl := Option.some.inj (hs.self.symm.trans hk)
      exact hs.marked
    · rw [hs.others d hd] at hk
      exact (hR.marks hk).suffix hs.journal
  case pipe =>
    intro i p' hp'
    rw [hs.pipes, List.getElem?_map] at hp'
    obtain ⟨p, hp, rfl⟩ := Option.map_eq_some_iff.mp hp'
    -- Mute and closed are asked at the writer and at the reader of each pipe; only the one that
    -- stops may answer otherwise than before.
    have hmute : w'.isMute p.writer = (w.isMute p.writer || writing && decide (p.writer = c)) := by
      by_cases hw : p.writer = c
      · simp [hw, isMute, hs.self, hs.isMute]
      · simp [isMute, hs.others _ hw, hw]
    have hclosed : w'.isClosed p.reader =
        (w.isClosed p.reader || reading && decide (p.reader = c)) := by
      by_cases hr : p.reader = c
      · simp [hr, isClosed, hs.self, hs.closed]
      · simp [isClosed, hs.others _ hr, hr]
    have hold := hR.pipe hp
    show (p.closed || _ || _) = true ↔ _
    simp only [Pipe.shut, hmute, hclosed, Bool.or_eq_true, hold]
    rw [or_assoc, or_or_or_comm]

/-- A connection is closed both of whose halves are dropped. -/
theorem close {f : Connection → Connection} (hR : w.Released) (hx : w.conns[c]? = some x)
    (hf : (f x).halts = { x.halts with closed := true }) (hs : ∀ y, (f y).stream = y.stream)
    (hr : .stream c .readerDropped ∈ w.journal) (hw : .stream c .writerDropped ∈ w.journal) :
    ((w.modifyConn c f).dropStream c).Released := by
  let v := w.modifyConn c f
  obtain ⟨hconns, hjournal⟩ := dropStream_rest v c
  have hhalts : ∀ d, (v.dropStream c).halts d = v.halts d := fun d => by
    rw [Network.halts, hconns, Network.halts]
  have hends : ∀ d, v.ends d = w.ends d :=
    ends_modifyConn w c fun y _ => congrArg Stream.ends (hs y)
  have hm := hR.marks (halts_of_conn hx)
  -- In the terms of what stops: both halves go at once.
  have hs : Stops w (v.dropStream c) c { x.halts with closed := true } true true := by
    constructor
    case self =>
      rw [hhalts, halts_modifyConn_self _ hx, hf]
    case others =>
      intro d hd
      rw [hhalts, halts_modifyConn_ne _ hd]
    case ends =>
      intro d
      rw [← hends, Network.ends, Network.ends, hconns]
    case journal =>
      rw [hjournal]
      exact List.suffix_rfl
    case marked =>
      constructor <;> rw [hjournal]
      · exact hm.reader
      · exact hm.writer
      · exact fun _ => ⟨hr, hw⟩
    case isMute => simp [Halts.isMute]
    case closed => simp
    case pipes => exact pipes_dropStream (hR.wired.same hends fun _ => rfl) c
  exact hR.stops hs

/-- A connection that has finished both loops closes, and lets go of its stream. -/
theorem closeIfFinished (hR : w.Released) (c : Nat) : (w.closeIfFinished c).Released := by
  rw [Network.closeIfFinished]
  split
  · next h =>
    obtain ⟨x, hx, hf⟩ := (Option.any_eq_true _ _).mp h
    obtain ⟨hr, hw⟩ := Bool.and_eq_true_iff.mp hf
    have hm := hR.marks (halts_of_conn hx)
    exact hR.close hx rfl (fun _ => rfl) (hm.reader hr) (hm.writer hw).2
  · exact hR

/-- The loop that reads stops. Its pipe stays open until the connection is closed. -/
theorem stopReading (hR : w.Released) (hx : w.conns[c]? = some x) :
    (w.stopReading c).Released := by
  -- The reader's half is dropped, which closes no pipe yet: its writer may still write into it.
  let u := w.modifyConn c fun x => { x with reading := .stopped }
  let v := u.emit (.stream c .readerDropped)
  have hm := hR.marks (halts_of_conn hx)
  have hj : w.journal <:+ v.journal := List.suffix_cons _ _
  have hs : Stops w v c { x.halts with reading := true } false false := by
    constructor
    case self => exact halts_modifyConn_self _ hx
    case others =>
      intro d hd
      exact halts_modifyConn_ne _ hd
    case ends => exact ends_modifyConn w c fun _ _ => rfl
    case journal => exact hj
    case marked => exact ⟨fun _ => List.mem_cons_self, (hm.suffix hj).writer, (hm.suffix hj).both⟩
    case isMute =>
      rw [Bool.or_false, Network.isMute, halts_of_conn hx, Option.any_some]
      rfl
    case closed => rw [Bool.or_false, isClosed, halts_of_conn hx, Option.any_some]
    case pipes =>
      refine (List.map_id' w.pipes).symm.trans (List.map_congr_left fun p _ => ?_)
      simp [Pipe.shut]
  exact (hR.stops hs).closeIfFinished c

/-- The loop that writes stops. -/
theorem stopWriting (hR : w.Released) (hx : w.conns[c]? = some x) :
    (w.stopWriting c).Released := by
  let v := w.modifyConn c Connection.stopWriting
  have hends : ∀ d, v.ends d = w.ends d := ends_modifyConn w c fun _ _ => rfl
  have hv : v.Wired := hR.wired.same hends fun _ => rfl
  have hm := hR.marks (halts_of_conn hx)
  -- The stream is shut down, which closes the pipe if there is one.
  obtain ⟨u, hu, hpipes, hconns, hjournal⟩ : ∃ u : Network,
      w.stopWriting c =
        ((u.emit (.stream c .shutdown)).emit (.stream c .writerDropped)).closeIfFinished c ∧
      u.pipes = w.pipes.map (Pipe.shut c true false) ∧ u.conns = v.conns ∧
      u.journal = w.journal := by
    rw [Network.stopWriting]
    split
    · next i o hs =>
      refine ⟨v.closePipe o, rfl, pipes_closePipe_outgoing hv (ends_of_stream hs), ?_, ?_⟩ <;>
        rw [closePipe_eq]
      rfl
    · next hs =>
      exact ⟨v, rfl, (map_shut_of_no_ends hv (ends_of_no_pipes hs) true false).symm, rfl, rfl⟩
  let t := (u.emit (.stream c .shutdown)).emit (.stream c .writerDropped)
  have hhalts : ∀ d, t.halts d = v.halts d := fun d => by
    show (u.conns[d]?).map _ = _
    rw [hconns, Network.halts]
  have hj : w.journal <:+ t.journal := by
    rw [← hjournal]
    exact List.suffix_append [_, _] _
  have hs : Stops w t c { x.halts with writing := true } true false := by
    constructor
    case self => exact (hhalts c).trans (halts_modifyConn_self _ hx)
    case others =>
      intro d hd
      exact (hhalts d).trans (halts_modifyConn_ne _ hd)
    case ends =>
      intro d
      rw [← hends, Network.ends, Network.ends]
      exact congrArg (fun l : List Connection => (l[d]?).bind _) hconns
    case journal => exact hj
    case marked =>
      refine ⟨(hm.suffix hj).reader, ?_, (hm.suffix hj).both⟩
      intro _
      exact ⟨List.mem_cons_of_mem _ List.mem_cons_self, List.mem_cons_self⟩
    case isMute => simp [Halts.isMute]
    case closed => rw [Bool.or_false, isClosed, halts_of_conn hx, Option.any_some]
    case pipes => exact hpipes
  rw [hu]
  exact (hR.stops hs).closeIfFinished c

end Released

end Network

end Parley

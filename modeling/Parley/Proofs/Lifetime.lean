import Parley.Proofs.Binding
import Parley.Proofs.Releasing
import Parley.Proofs.Requests

/-!
# A life that goes one way

The state of a connection, the flag of its link, the two loops, the tokens that tell them to stop
and the halves of its stream are changed in different places by different tasks. They go together
all the same, and a connection only ever moves on to a later phase.

- `ConnMove.rank_le`: no move leads back.
- `Connection.Sound.closed_step`: nothing happens to a connection that is closed.
- `Network.link_act`: a connection gets its link when it is connected, and in no other way.
- `Network.Standing`, `Network.life_in_order`: the whole, for every connection between two steps.
-/

namespace Parley

namespace Connection

variable {c : Nat} {x y : Connection} {j : Journal} {es : List Event}

/-! ## No way back -/

/-- Sending a message is no part of the life of a connection. -/
theorem phase_offer (x : Connection) (m : Message) : (x.offer m).phase = x.phase := by
  rcases x.offer_cases 0 m with ⟨l, -, -, -, hx⟩ | ⟨-, -, hx⟩ <;> rw [hx]

/-- Forgetting a request is none either. -/
theorem phase_forget (x : Connection) (id : Id) : (x.forget id).phase = x.phase := by
  rcases x.forget_cases 0 id with ⟨l, k, y, -, -, rfl, -, hx⟩ | ⟨-, -, hx⟩
  · rw [hx, phase_offer]
  · rw [hx]

/-- A connection that is closed cannot be in a later phase. -/
theorem rank_le_closed (p : Phase) : p.rank ≤ Phase.closed.rank := by
  cases p <;> decide

/-- No move leads back to an earlier phase. -/
theorem rank_le (hm : ConnMove c x es y) : x.phase.rank ≤ y.phase.rank := by
  cases hm with
  | turn ht =>
    cases ht with
    | giveBack => exact rank_le_closed _
    | close => exact rank_le_closed _
    | _ => exact Nat.le_refl _
  | start h d =>
    rw [h]
    exact Nat.zero_le _
  | cut h flush =>
    -- Only a connection that is alive can begin to end.
    show x.phase.rank ≤ Phase.disconnecting.rank
    cases hp : x.phase with
    | connecting => decide
    | connected => decide
    | disconnected | disconnecting | closed => simp [hp, Phase.isLive] at h
  | notify => exact Nat.le_of_eq (congrArg Phase.rank (phase_offer x _).symm)
  | refuse => exact Nat.le_of_eq (congrArg Phase.rank (phase_offer x _).symm)
  | reply => exact Nat.le_of_eq (congrArg Phase.rank (phase_offer x _).symm)
  | forget id => exact Nat.le_of_eq (congrArg Phase.rank (phase_forget x id).symm)
  | _ => exact Nat.le_refl _

/-- The life of a connection goes forwards only, however many moves it makes. -/
theorem rank_le_of_moves (hm : ConnMoves c x es y) : x.phase.rank ≤ y.phase.rank := by
  induction hm with
  | refl => exact Nat.le_refl _
  | tail _ hstep ih => exact Nat.le_trans ih (rank_le hstep)

/-- Nothing comes after the end. -/
theorem eq_closed_of_rank {p : Phase} (h : Phase.closed.rank ≤ p.rank) : p = .closed := by
  cases p with
  | closed => rfl
  | _ => exact absurd h (by decide)

/-! ## Nothing happens to a connection that is closed -/

/-- What a connection that is closed does not do any more. -/
structure Quiet (x : Connection) : Prop where
  isOpen : x.isOpen = false
  reading : ¬ x.IsReading
  writing : ¬ x.IsWriting

/-- A closed connection is quiet. -/
theorem Sound.quiet_of_closed (hS : Sound c x j) (hp : x.phase = .closed) : x.Quiet := by
  cases hS with
  | unused hu =>
    refine ⟨by rw [isOpen, hu.link]; rfl, ?_, ?_⟩
    · rintro ⟨⟨s, hs⟩, -⟩
      cases hs.symm.trans hu.reading
    · rintro (h | ⟨rest, h⟩)
      · cases h.symm.trans hu.writing
      · cases h.symm.trans hu.writing
  | live hl => cases hp.symm.trans hl.phase
  | ended he =>
    refine ⟨he.isOpen_eq_false, he.not_isReading, ?_⟩
    obtain ⟨-, hf⟩ := he.phase.resolve_left fun h => by cases hp.symm.trans h
    have hs : x.writing = .stopped := of_decide_eq_true (Bool.and_eq_true_iff.mp hf).2
    rintro (h | ⟨rest, h⟩)
    · cases hs.symm.trans h
    · cases hs.symm.trans h

/-- A connection that is closed stays so; nothing is written, and nothing is handed on. -/
theorem Sound.closed_step (hS : Sound c x j) (hp : x.phase = .closed) (hm : ConnMove c x es y) :
    y.phase = .closed ∧ Journal.written c es = [] ∧ Journal.received c es = [] := by
  -- Nobody reads or writes any more, and the link takes nothing.
  have hq := hS.quiet_of_closed hp
  have hy : y.phase = .closed := eq_closed_of_rank (hp ▸ rank_le hm)
  refine ⟨hy, ?_⟩
  cases hm with
  | elsewhere e he => exact ⟨Journal.written_elsewhere he [], Journal.received_elsewhere he []⟩
  | turn ht =>
    cases ht with
    | wrote n ha hw => exact absurd (.inr ⟨_, hw⟩) hq.writing
    | _ => exact ⟨rfl, rfl⟩
  | start h d => cases hp.symm.trans h
  | notify method params =>
    rw [offered_of_not_open c _ hq.isOpen]
    exact ⟨rfl, rfl⟩
  | call k hl hs =>
    have ho := hq.isOpen
    rw [isOpen_of_link hl, (Link.start_eq_some hs).1] at ho
    cases ho
  | forget id =>
    rcases x.forget_cases c id with ⟨l, k, z, hl, -, rfl, he, -⟩ | ⟨-, he, -⟩
    · have ho : l.isOpen = false := by
        rw [← isOpen_of_link hl]
        exact hq.isOpen
      let l' := { l with pending := Link.without id l.pending }
      have hk := isOpen_of_link (x := { x with link := some l' }) rfl
      rw [he, offered_of_not_open c _ (hk.trans ho)]
      exact ⟨rfl, rfl⟩
    · rw [he]
      exact ⟨rfl, rfl⟩
  | answer hr hl ha => exact absurd hr hq.reading
  | receive hr hm => exact absurd hr hq.reading
  | serve hr r => exact absurd hr hq.reading
  | refuse hr => exact absurd hr hq.reading
  | reply r id outcome =>
    rw [offered_of_not_open c _ hq.isOpen]
    exact ⟨rfl, rfl⟩
  | strand | spawn | finish | cut => exact ⟨rfl, rfl⟩

/-- A closed connection stays closed, and reads and writes nothing any more. -/
theorem Sound.closed_moves (hS : Sound c x j) (hp : x.phase = .closed) (hm : ConnMoves c x es y) :
    y.phase = .closed ∧ Journal.written c es = [] ∧ Journal.received c es = [] := by
  suffices h : (Sound c y (es ++ j) ∧ y.phase = .closed) ∧
      Journal.written c es = [] ∧ Journal.received c es = [] from ⟨h.1.2, h.2⟩
  induction hm with
  | refl => exact ⟨⟨hS, hp⟩, rfl, rfl⟩
  | tail _ hstep ih =>
    obtain ⟨⟨hS', hp'⟩, hw, hr⟩ := ih
    obtain ⟨hp'', hw', hr'⟩ := hS'.closed_step hp' hstep
    refine ⟨⟨?_, hp''⟩, ?_, ?_⟩
    · rw [List.append_assoc]
      exact hS'.step hstep
    · rw [Journal.written_append, hw, hw', List.append_nil]
    · rw [Journal.received_append, hr, hr', List.append_nil]

/-! ## Connections that were never connected -/

/-- A connection whose loops were not started has no link. -/
def Untied (x : Connection) : Prop := x.reading = .notStarted → x.link = none

/-- A connection that is tied to nothing is tied to nothing by a message it takes. -/
theorem Untied.offer (h : x.Untied) (m : Message) : (x.offer m).Untied := by
  rcases x.offer_cases 0 m with ⟨l, hl, -, -, hx⟩ | ⟨-, -, hx⟩
  · rw [hx]
    exact fun hr => by cases hl.symm.trans (h hr)
  · rw [hx]
    exact h

/-- Nor by any of its own moves. -/
theorem Untied.step (h : x.Untied) (hm : ConnMove c x es y) : y.Untied := by
  -- Who has a link has had its loops started.
  have tied : ∀ {l : Link} {z : Connection}, x.link = some l → z.reading = x.reading → z.Untied :=
    fun hl hz hr => by cases hl.symm.trans (h (hz.symm.trans hr))
  cases hm with
  | turn ht =>
    cases ht with
    | read => rintro ⟨⟩
    | stopReading => rintro ⟨⟩
    | beginFrame ha hw hl hq => exact tied hl rfl
    | stopAborted | stopDrained | stopBroken =>
      intro hr
      rw [stopWriting, h hr]
      rfl
    | _ => exact h
  | start => rintro ⟨⟩
  | notify => exact h.offer _
  | refuse => exact h.offer _
  | reply => exact h.offer _
  | call k hl hs => exact tied hl rfl
  | forget id =>
    rcases x.forget_cases c id with ⟨l, k, z, hl, -, rfl, -, hx⟩ | ⟨-, -, hx⟩
    · rw [hx]
      refine Untied.offer ?_ _
      exact tied hl rfl
    · rw [hx]
      exact h
  | answer hr hl ha => exact tied hl rfl
  | strand hl ha => exact tied hl rfl
  | cut hp flush =>
    intro hr
    rw [cut, h hr]
    rfl
  | _ => exact h

end Connection

namespace Network

open Connection (Halts)

variable {w : Network} {c : Nat} {x y : Connection}

/-! ## How a connection gets its link -/

/-- A connection whose loops were not started. -/
def IsIdle (w : Network) (c : Nat) : Prop :=
  ∃ x, w.conns[c]? = some x ∧ x.reading = .notStarted

/-- Whatever spares an idle connection leaves it idle. -/
theorem Spares.isIdle {w' : Network} (h : Spares c w w') (hi : w.IsIdle c) : w'.IsIdle c := by
  obtain ⟨x, hx, hr⟩ := hi
  have hc := h.conn
  rw [getElem?_inflow, getElem?_inflow, hx] at hc
  obtain ⟨y, hy, he⟩ := Option.map_eq_some_iff.mp hc
  exact ⟨y, hy, (congrArg Intaking.reading he).trans hr⟩

/-- The turn of a task leaves it idle. -/
theorem IsIdle.perform (hi : w.IsIdle c) (hW : w.Wired) (t : Task) : (w.perform t).IsIdle c := by
  by_cases ht : t = .reader c
  · subst ht
    obtain ⟨x, hx, hr⟩ := hi
    -- There is nothing to read on with.
    have hw : w.readLoop c = w := by
      rw [readLoop, hx]
      simp only [hr]
    exact ⟨x, (congrArg (·.conns[c]?) hw).trans hx, hr⟩
  · exact (spares_perform hW ht).isIdle hi

/-- So do all the turns. -/
theorem IsIdle.settle (hi : w.IsIdle c) (hW : w.Wired) (n : Nat) : (settle n w).IsIdle c := by
  refine (settle_induction (P := fun v => v.IsIdle c ∧ v.Wired) ⟨hi, hW⟩ ?_ n).1
  rintro u v hs ⟨hu, huW⟩
  obtain ⟨t, q, -, rfl⟩ := step_eq_some.mp hs
  have hpop : ({ u with ready := q } : Network).IsIdle c := hu
  have hpopW : ({ u with ready := q } : Network).Wired := huW.same (fun _ => rfl) fun _ => rfl
  exact ⟨hpop.perform hpopW t, hpopW.perform t⟩

/-- What arrives at its stream wakes nobody, since nobody reads. -/
theorem IsIdle.modifyScript (hi : w.IsIdle c) (f : Input × Output → Input × Output) :
    ((w.modifyScript c f).wakeReader c).IsIdle c := by
  obtain ⟨x, hx, hr⟩ := hi
  rw [IsIdle, wakeReader_eq]
  show ∃ y, (w.modifyConn c _).conns[c]? = some y ∧ _
  rw [getElem?_modifyConn_self, hx]
  refine ⟨_, rfl, ?_⟩
  dsimp only
  split <;> exact hr

/-- Only connecting a connection starts its loops. -/
theorem IsIdle.act (hi : w.IsIdle c) (hW : w.Wired) {a : Action} (ha : ∀ d, a ≠ .connect c d) :
    (w.act a).2.IsIdle c := by
  by_cases hc : a.concerns c = true
  · cases a with
    | connect e d =>
      obtain rfl : e = c := by simpa [Action.concerns] using hc
      exact absurd rfl (ha d)
    | feed e bytes ended =>
      obtain rfl : e = c := by simpa [Action.concerns] using hc
      exact hi.modifyScript _
    | fault e text =>
      obtain rfl : e = c := by simpa [Action.concerns] using hc
      exact hi.modifyScript _
    | _ => cases hc
  · by_cases hs : ∃ n, a = .settle n
    · obtain ⟨n, rfl⟩ := hs
      exact hi.settle hW n
    · obtain ⟨x, hx, -⟩ := id hi
      have hlt : c < w.conns.length := (List.getElem?_eq_some_iff.mp hx).1
      exact (spares_act hW (.inl hlt) (Bool.eq_false_iff.mpr hc) fun n hn => hs ⟨n, hn⟩).isIdle hi

/-- A connection has no link as long as its loops were not started. -/
theorem Reachable.link_eq_none_iff (hw : Reachable w) (hx : w.conns[c]? = some x) :
    x.link = none ↔ x.reading = .notStarted := by
  constructor
  · intro hl
    cases hw.sound.conn c x hx with
    | unused hu => exact hu.reading
    | live h => cases hl.symm.trans h.link
    | ended h => cases hl.symm.trans h.link
  · have huntied : w.Each fun _ x _ => x.Untied := by
      refine hw.each ?_ fun h hm => h.step hm
      rintro c x j ⟨config, stream, rfl⟩ - -
      rfl
    exact huntied.conn c x hx

/-- A connection that has been joined to a dispatcher is connected. -/
theorem isConnected_joined (hx : w.conns[c]? = some x) (d : Nat) :
    (w.joined c d).IsConnected c := by
  rw [IsConnected, joined, wake_eq, wake_eq]
  show ∃ y, (w.modifyConn c _).conns[c]? = some y ∧ _
  rw [getElem?_modifyConn_self, hx]
  exact ⟨_, rfl, rfl⟩

/-- A connection gets its link when it is connected, and in no other way. -/
theorem link_act (hw : Reachable w) (hx : w.conns[c]? = some x) (hl : x.link = none) {a : Action}
    (hy : (w.act a).2.conns[c]? = some y) (hn : y.link ≠ none) : (w.act a).2.IsConnected c := by
  have hi : w.IsIdle c := ⟨x, hx, (hw.link_eq_none_iff hx).mp hl⟩
  by_cases ha : ∃ d, a = .connect c d
  · obtain ⟨d, rfl⟩ := ha
    have hact : (w.act (.connect c d)).2 = (w.connect c d).2 := rfl
    rw [hact] at hy ⊢
    rcases connect_cases w c d with ⟨z, hz, -, -, -, h⟩ | ⟨e, h⟩ | ⟨z, hz, -, -, h⟩
    · rw [h]
      exact isConnected_joined hz d
    · rw [h] at hy
      obtain rfl := Option.some.inj (hx.symm.trans hy)
      exact absurd hl hn
    · obtain rfl := Option.some.inj (hx.symm.trans hz)
      rw [h, getElem?_modifyConn_self, hx, Option.map_some] at hy
      obtain rfl := Option.some.inj hy
      exact absurd hl hn
  · obtain ⟨z, hz, hr⟩ := hi.act hw.wired fun d hd => ha ⟨d, hd⟩
    obtain rfl := Option.some.inj (hy.symm.trans hz)
    exact absurd (((hw.run [a]).link_eq_none_iff hy).mpr hr) hn

/-- A connection that has a link had it before, or was connected in between. -/
theorem link_run (hw : Reachable w) (hx : w.conns[c]? = some x) (hl : x.link = none)
    (actions : List Action) (hy : (run w actions).conns[c]? = some y) (hn : y.link ≠ none) :
    ∃ before, before <+: actions ∧ (run w before).IsConnected c := by
  induction actions generalizing w x with
  | nil =>
    obtain rfl := Option.some.inj (hx.symm.trans hy)
    exact absurd hl hn
  | cons a actions ih =>
    obtain ⟨z, -, hz, -, -⟩ := (path_act w a).conn hw.housed hx
    by_cases hzl : z.link = none
    · obtain ⟨before, hb, hc⟩ := ih (hw.run [a]) hz hzl hy
      exact ⟨a :: before, List.cons_prefix_cons.mpr ⟨rfl, hb⟩, hc⟩
    · refine ⟨[a], List.cons_prefix_cons.mpr ⟨rfl, List.nil_prefix⟩, ?_⟩
      exact link_act hw hx hl hz hzl

/-! ## The whole -/

/-- The stream of a connection is released: both halves are dropped, and its pipes are closed. -/
structure Freed (w : Network) (c : Nat) : Prop where
  reader : .stream c .readerDropped ∈ w.journal
  writer : .stream c .writerDropped ∈ w.journal
  pipes : ∀ i o, w.ends c = some (i, o) →
    (w.pipes[i]?).map Pipe.closed = some true ∧ (w.pipes[o]?).map Pipe.closed = some true

/-- A connection that is closed has let go of its stream. -/
theorem Released.freed (hR : w.Released) (hx : w.conns[c]? = some x) (hp : x.phase = .closed) :
    w.Freed c := by
  have hh := halts_of_conn hx
  have hclosed : x.halts.closed = true := decide_eq_true hp
  obtain ⟨hr, hw⟩ := (hR.marks hh).both hclosed
  refine ⟨hr, hw, ?_⟩
  intro i o he
  obtain ⟨b, hb⟩ := hR.wired.reader he
  obtain ⟨a, ha⟩ := hR.wired.writer he
  obtain ⟨p, hpi, hsi⟩ := Option.map_eq_some_iff.mp hb
  obtain ⟨q, hqo, hso⟩ := Option.map_eq_some_iff.mp ha
  obtain ⟨hreader, -⟩ := Prod.mk.inj hsi
  obtain ⟨-, hwriter⟩ := Prod.mk.inj hso
  constructor
  · rw [hpi, Option.map_some, (hR.pipe hpi).mpr (.inr ?_)]
    rw [hreader, isClosed, hh, Option.any_some, hclosed]
  · rw [hqo, Option.map_some, (hR.pipe hqo).mpr (.inl ?_)]
    rw [hwriter, isMute, hh, Option.any_some, Halts.isMute, hclosed, Bool.or_true]

/-- A loop that was not started has written nothing. -/
theorem Reachable.written_of_notStarted (h : Reachable w) (hx : w.conns[c]? = some x)
    (hs : x.writing = .notStarted) : w.journal.written c = [] := by
  cases (h.carried.conn c x hx).2 with
  | unused _ _ hw => exact hw
  | running _ hr _ _ =>
    rcases hr with hr | ⟨s, hr⟩ <;> cases hs.symm.trans hr
  | stopped hr _ _ => cases hs.symm.trans hr

/-- What holds of a connection between two steps, whatever has been done and will be done. -/
structure Standing (w : Network) (c : Nat) (x : Connection) : Prop where
  /-- It stays, and it never gets back to an earlier phase. It keeps its link, and gets one when it
  is connected, in no other way. -/
  later : ∀ actions, ∃ y, (run w actions).conns[c]? = some y ∧ x.phase.rank ≤ y.phase.rank ∧
    (x.link ≠ none → y.link ≠ none) ∧
    (x.link = none → y.link ≠ none → ∃ before, before <+: actions ∧ (run w before).IsConnected c)
  /-- It is not on its way to be connected. -/
  settled : x.phase ≠ .connecting
  connected : x.phase = .connected ↔ ∃ l, x.link = some l ∧ l.isOpen = true
  /-- Once its end has begun nothing is accepted, nobody waits, and everybody was told to stop. -/
  ended : x.phase = .disconnecting ∨ x.phase = .closed →
    ∀ l, x.link = some l → l.isOpen = false ∧ l.pending = [] ∧ x.shutdown = true
  /-- When it is closed its loops have stopped, if they were ever started. -/
  stopped : x.phase = .closed → x.link ≠ none → x.reading = .stopped ∧ x.writing = .stopped
  unused : x.phase = .closed → x.link = none →
    x.reading = .notStarted ∧ x.writing = .notStarted ∧ w.journal.written c = []
  freed : x.phase = .closed → w.Freed c
  /-- When it is closed nothing is written any more, and nothing is handed on. -/
  silent : x.phase = .closed → ∀ actions, ((run w actions).conns[c]?).map Connection.phase =
      some .closed ∧
    (run w actions).journal.written c = w.journal.written c ∧
    (run w actions).journal.received c = w.journal.received c

/-- **A life that goes one way.** In every use of a network, the phases of each connection only go
up, and whenever no task has its turn the phase agrees with the link, the tokens, the loops and the
stream: what is connected is open, what ends is closed to messages and has nobody waiting, and what
is closed has stopped, has released its stream, and stays silent for ever. -/
theorem life_in_order (h : Reachable w) (hx : w.conns[c]? = some x) : w.Standing c x := by
  have hS := h.sound.conn c x hx
  constructor
  case later =>
    intro actions
    obtain ⟨y, es, hy, -, hm⟩ := (path_run w actions).conn h.housed hx
    refine ⟨y, hy, Connection.rank_le_of_moves hm, ?_, ?_⟩
    · intro hl
      obtain ⟨l, hl⟩ := Option.ne_none_iff_exists'.mp hl
      obtain ⟨k, hk⟩ := hm.link hl
      rw [hk]
      rintro ⟨⟩
    · intro hl hn
      exact link_run h hx hl actions hy hn
  case settled =>
    -- Being connected is one step.
    intro hp
    have hlive : x.phase.isLive = true := by rw [hp]; rfl
    obtain ⟨l, hl⟩ := hS.live_of_isLive hlive
    cases hp.symm.trans hl.phase
  case connected =>
    constructor
    · intro hp
      obtain ⟨l, hl⟩ := hS.live_of_isLive (by rw [hp]; rfl)
      exact ⟨l, hl.link, hl.isOpen⟩
    · rintro ⟨l, hl, ho⟩
      obtain ⟨k, hk⟩ := hS.live_of_isOpen ((Connection.isOpen_of_link hl).trans ho)
      exact hk.phase
  case ended =>
    intro hp l hl
    cases hS with
    | unused hu => cases hl.symm.trans hu.link
    | live hv => rcases hp with hp | hp <;> cases hp.symm.trans hv.phase
    | ended he =>
      obtain rfl := Option.some.inj (hl.symm.trans he.link)
      exact ⟨he.isClosed, he.pending, he.shutdown⟩
  case stopped =>
    intro hp hl
    cases hS with
    | unused hu => exact absurd hu.link hl
    | live hv => cases hp.symm.trans hv.phase
    | ended he =>
      obtain ⟨-, hf⟩ := he.phase.resolve_left fun h => by cases hp.symm.trans h
      obtain ⟨hr, hw⟩ := Bool.and_eq_true_iff.mp hf
      exact ⟨of_decide_eq_true hr, of_decide_eq_true hw⟩
  case unused =>
    intro _ hl
    cases hS with
    | unused hu => exact ⟨hu.reading, hu.writing, h.written_of_notStarted hx hu.writing⟩
    | live hv => cases hl.symm.trans hv.link
    | ended he => cases hl.symm.trans he.link
  case freed => exact h.released.freed hx
  case silent =>
    intro hp actions
    obtain ⟨y, es, hy, hj, hm⟩ := (path_run w actions).conn h.housed hx
    obtain ⟨hc, hw, hr⟩ := hS.closed_moves hp hm
    rw [hy, hj, Journal.written_append, Journal.received_append, hw, hr, List.append_nil,
      List.append_nil]
    exact ⟨congrArg some hc, rfl, rfl⟩

/-- One end of a pair of pipes after an end that flushed. -/
theorem life_in_order_flushed :
    let w := run {} [.openPipes 4 {} {}, .openDispatcher, .openDispatcher, .connect 0 0,
      .connect 1 1, .notify (.conn 0) "a" (.ok .null), .disconnect 0 true, .settle 99]
    ∃ x, w.conns[0]? = some x ∧ x.phase = .closed ∧ w.Standing 0 x ∧
      w.journal.written 0 = (Message.notification "a" .null).frame ∧
      ∀ actions, (run w actions).journal.written 0 = w.journal.written 0 := by
  intro w
  obtain ⟨x, hx, hp⟩ := Option.map_eq_some_iff.mp
    (show (w.conns[0]?).map Connection.phase = some .closed by decide +kernel)
  have hs := life_in_order ⟨_, rfl⟩ hx
  exact ⟨x, hx, hp, hs, by decide +kernel, fun actions => (hs.silent hp actions).2.1⟩

end Network

end Parley

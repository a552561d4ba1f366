import Parley.Proofs.Hearing

/-!
# How far a connection has read

Of everything that has arrived at a connection, a first part has been read, and the rest waits. A
loop that reads knows where in the string it is, and stands in the queue if something waits for it.
Only its own turn takes it further, and that takes it to the end of what has arrived.

- `Given`: what has been put into a script, or which pipes there are.
- `Network.Tuned`, `Network.Alert`: the two invariants.
- `Network.Tuned.spares`: what happens elsewhere keeps them.
- `Network.Tuned.turn`: so does the turn of the loop.
-/

namespace Parley

open Parley.Frame

/-! ## What has arrived -/

/-- What is given to a connection: its settings, its pipes if it is over pipes, and else everything
that has been put into its script. -/
structure Given where
  config : Config
  ends : Option (Nat × Nat)
  input : Input

/-- Whether a stream goes on as what was given says. -/
def Given.Fits (g : Given) : Stream → Prop
  | .script input _ =>
    g.ends = none ∧ input.ended = g.input.ended ∧ input.fault = g.input.fault
  | .pipes incoming outgoing => g.ends = some (incoming, outgoing) ∧ g.input = {}

namespace Given

variable {g : Given} {s t : Stream}

theorem Fits.congr (h : g.Fits s) (hm : t.mute = s.mute) : g.Fits t := by
  cases hs : s with
  | script input output =>
    obtain ⟨output', rfl⟩ := Stream.mute_eq_script hm hs
    rw [hs] at h
    exact h
  | pipes i o =>
    rw [Stream.mute_eq_pipes hm hs]
    rw [hs] at h
    exact h

theorem Fits.emptied (h : g.Fits s) : g.Fits s.emptied := by
  cases s with
  | script input output => exact h
  | pipes i o => exact h

theorem Fits.ends (h : g.Fits s) : s.ends = g.ends := by
  cases s with
  | script input output => exact h.1.symm
  | pipes i o => exact h.1.symm

theorem Fits.eq_script (h : g.Fits s) (hg : g.ends = none) : ∃ input output,
    s = .script input output ∧ input.ended = g.input.ended ∧ input.fault = g.input.fault := by
  cases s with
  | script input output => exact ⟨input, output, rfl, h.2⟩
  | pipes i o => cases h.1.symm.trans hg

theorem Fits.eq_pipes (h : g.Fits s) {i o : Nat} (hg : g.ends = some (i, o)) : s = .pipes i o := by
  cases s with
  | script input output => cases h.1.symm.trans hg
  | pipes i' o' =>
    obtain ⟨rfl, rfl⟩ := Prod.mk.inj (Option.some.inj (h.1.symm.trans hg))
    rfl

end Given

namespace Network

variable {w w' : Network} {c : Nat} {x : Connection} {g : Given}

/-! ## How far a connection has read -/

/-- How far a connection has read what has arrived: it has handed on the messages in a first part.
If its loop is running, it knows where in the string it is, and the rest waits for it. -/
def Hears (w : Network) (c : Nat) (x : Connection) (whole : List UInt8) : Prop :=
  ∃ read rest, whole = read ++ rest ∧
    w.journal.received c = messagesIn (Intake.start.feed x.config.maxContentLength read).1 ∧
    match x.reading with
    | .notStarted => read = [] ∧ rest = (w.waiting c).1
    | .running s => rest = (w.waiting c).1 ∧ ∃ bodies,
        Intake.start.feed x.config.maxContentLength read = (bodies, .ok s) ∧
        bodies.findSome? bodyError? = none
    | .stopped => True

/-- All that has arrived at a connection: in its script, or through its pipe. -/
def whole (w : Network) (c : Nat) (g : Given) : List UInt8 := g.input.bytes ++ w.supply c

/-- A connection has read a first part of what has arrived, and the rest waits for it. -/
structure Tuned (w : Network) (c : Nat) (g : Given) : Prop where
  wired : w.Wired
  conn : ∃ x, w.conns[c]? = some x ∧ x.config = g.config ∧ g.Fits x.stream ∧
    Hears w c x (w.whole c g)

theorem Tuned.ends (h : w.Tuned c g) : w.ends c = g.ends := by
  obtain ⟨x, hx, -, hf, -⟩ := h.conn
  rw [ends_of_conn hx, hf.ends]

/-- A loop that reads is in the queue, unless it has read everything. -/
def Alert (w : Network) (c : Nat) : Prop :=
  ∀ x s, w.conns[c]? = some x → x.reading = .running s →
    .reader c ∈ w.ready ∨ w.waiting c = ([], .open)

/-- More bytes wait, and nothing else has become of a connection. -/
theorem Hears.arrive {y : Connection} {whole arrived : List UInt8} (h : Hears w c x whole)
    (hc : y.config = x.config) (hr : y.reading = x.reading)
    (hj : w'.journal.received c = w.journal.received c)
    (hw : (w'.waiting c).1 = (w.waiting c).1 ++ arrived) :
    Hears w' c y (whole ++ arrived) := by
  obtain ⟨read, rest, rfl, hm, hs⟩ := h
  refine ⟨read, rest ++ arrived, List.append_assoc .., ?_, ?_⟩
  · rw [hj, hm, hc]
  · rw [hr, hc, hw]
    cases hx : x.reading with
    | notStarted =>
      rw [hx] at hs
      exact ⟨hs.1, congrArg (· ++ arrived) hs.2⟩
    | running s =>
      rw [hx] at hs
      exact ⟨congrArg (· ++ arrived) hs.1, hs.2⟩
    | stopped => trivial

/-- What spares the intake of a connection may bring bytes to it. -/
theorem Tuned.spares (h : w.Tuned c g) (hs : Spares c w w') : w'.Tuned c g := by
  obtain ⟨x, hx, hc, hf, hh⟩ := h.conn
  obtain ⟨y, arrived, hy, hi, hsup, hwait, -⟩ := hs.arrives h.wired hx
  have hyc : y.config = x.config := congrArg Intaking.config hi
  have hyr : y.reading = x.reading := congrArg Intaking.reading hi
  have hwhole : w'.whole c g = w.whole c g ++ arrived := by
    rw [whole, whole, hsup, List.append_assoc]
  refine ⟨hs.wired, y, hy, hyc.trans hc, hf.congr (congrArg Intaking.stream hi), ?_⟩
  rw [hwhole]
  exact hh.arrive hyc hyr hs.received hwait

theorem Alert.spares (h : w.Alert c) (hW : w.Wired) (hx : w.conns[c]? = some x)
    (hs : Spares c w w') : w'.Alert c := by
  obtain ⟨y, arrived, hy, hi, -, -, ha⟩ := hs.arrives hW hx
  intro z s hz hr
  obtain rfl := Option.some.inj (hy.symm.trans hz)
  have hxr : x.reading = .running s := (congrArg Intaking.reading hi).symm.trans hr
  rcases ha with ha | ha
  · rw [ha]
    exact (h x s hx hxr).imp_left fun hm => hs.ready.subset hm
  · exact .inl (ha s hxr)

/-! ## The turn of the loop that reads -/

/-- A turn of the loop neither writes into a pipe nor lays one. -/
theorem Outcome.supply {ms : List Message} {es : List ReadError} (h : Outcome c ms es w w')
    (he : w'.ends c = w.ends c) : w'.supply c = w.supply c := by
  rw [Network.supply, Network.supply, he]
  cases w.ends c with
  | none => rfl
  | some p =>
    obtain ⟨i, o⟩ := p
    simp only [h.sides]
    cases w.sides i with
    | none => rfl
    | some q => exact h.written q.2

theorem ends_of_inflow {a : Intaking} (ha : w.inflow.conns[c]? = some a) :
    w.ends c = a.stream.ends := by
  rw [ends_eq, ha]
  rfl

/-- What waits decides about the whole string. -/
theorem Tuned.verdict_whole (h : w.Tuned c g) (hx : w.conns[c]? = some x) {s : Intake}
    (hs : x.reading = .running s) (sequel : Sequel) :
    verdict g.config.maxContentLength .start (w.whole c g) sequel =
      verdict g.config.maxContentLength s (w.waiting c).1 sequel := by
  obtain ⟨z, hz, hc, -, read, rest, hwhole, -, hat⟩ := h.conn
  obtain rfl := Option.some.inj (hx.symm.trans hz)
  rw [hs] at hat
  obtain ⟨rfl, bodies, hfeed, hgood⟩ := hat
  rw [hc] at hfeed
  rw [hwhole]
  exact verdict_append hfeed hgood _ sequel

/-- **The turn of a loop that reads** takes in all that has arrived. What it hands on are the
messages of the whole string, and what it comes to is the verdict on the whole string. -/
theorem Tuned.turn (h : w.Tuned c g) (hx : w.conns[c]? = some x) (hr : x.IsReading)
    (hd : x.dispatcher.isSome = true) :
    (w.readLoop c).Tuned c g ∧ (w.readLoop c).Alert c ∧
      (w.readLoop c).whole c g = w.whole c g ∧
      (w.readLoop c).journal.received c =
        messagesIn (Intake.start.feed g.config.maxContentLength (w.whole c g)).1 ∧
      (w.readLoop c).journal.faults =
        (verdict g.config.maxContentLength .start (w.whole c g) (w.waiting c).2).fault?.toList ++
          w.journal.faults := by
  obtain ⟨⟨s, hs⟩, hshut⟩ := hr
  have hverdict := h.verdict_whole hx hs (w.waiting c).2
  obtain ⟨z, hz, hc, hf, read, rest, hwhole, hm, hat⟩ := h.conn
  obtain rfl := Option.some.inj (hx.symm.trans hz)
  simp only [hs] at hat
  obtain ⟨rfl, bodies, hfeed, hgood⟩ := hat
  have hloop : w.readLoop c = w.readOn c x.config.maxContentLength s := by
    rw [Network.readLoop, hx]
    simp only [hs]
    rw [if_neg (by simp [hshut])]
  obtain ⟨ho, r, hconn, hreading⟩ :=
    outcome_readOn x.config.maxContentLength s hx ⟨⟨s, hs⟩, hshut⟩ hd
  rw [← hloop] at ho hconn hreading
  rw [hc] at hfeed hm ho hreading
  -- The pipes are where they were, and nothing was written into them.
  have hends : (w.readLoop c).ends c = w.ends c := by
    rw [ends_of_inflow hconn, ends_of_conn hx]
    cases x.stream <;> rfl
  have hsame : (w.readLoop c).whole c g = w.whole c g := by
    rw [whole, whole, ho.supply hends]
  have hreceived : (w.readLoop c).journal.received c =
      messagesIn (Intake.start.feed g.config.maxContentLength (w.whole c g)).1 := by
    rw [ho.received, hm, hfeed, hwhole, messagesIn_feed_append hfeed hgood]
  obtain ⟨y, hy, hi⟩ : ∃ y, (w.readLoop c).conns[c]? = some y ∧
      y.intaking = ⟨x.config, r, x.stream.emptied.mute⟩ := by
    rw [getElem?_inflow] at hconn
    exact Option.map_eq_some_iff.mp hconn
  have hyc : y.config = x.config := congrArg Intaking.config hi
  have hyr : y.reading = r := congrArg Intaking.reading hi
  refine ⟨⟨(spares_readLoop h.wired (Nat.ne_of_lt c.lt_succ_self)).wired, y, hy, hyc.trans hc,
    hf.emptied.congr (congrArg Intaking.stream hi), ?_⟩, ?_, hsame, hreceived, ?_⟩
  · rw [hsame]
    refine ⟨w.whole c g, [], (List.append_nil _).symm, ?_, ?_⟩
    · rw [hyc, hc, hreceived]
    · rw [hyr, hyc, hc]
      rcases hreading with rfl | ⟨t, rfl, hgo, ht, hwait⟩
      · trivial
      · obtain ⟨all, t', hall, hallgood⟩ := exists_of_verdict_goesOn (hverdict.trans hgo)
        have hend := Intake.feed_append_of_ok hfeed (w.waiting c).1
        rw [← hwhole, hall, ht] at hend
        obtain rfl := Except.ok.inj (Prod.mk.inj hend).2
        exact ⟨by rw [hwait], all, hall, hallgood⟩
  · intro z t hz hzr
    obtain rfl := Option.some.inj (hy.symm.trans hz)
    rcases hreading with rfl | ⟨t', -, -, -, hwait⟩
    · cases hyr.symm.trans hzr
    · exact .inr hwait
  · rw [ho.faults, hverdict]

/-- A connection that is read from has a dispatcher. -/
theorem Bound.isSome_dispatcher (hB : w.Bound) (hS : w.Steady) (hx : w.conns[c]? = some x)
    (hr : x.IsReading) : x.dispatcher.isSome = true := by
  obtain ⟨l, hl⟩ := (hS.sound.conn c x hx).live_of_isReading hr
  have ho : x.isOpen = true := by rw [Connection.isOpen_of_link hl.link, hl.isOpen]
  obtain ⟨d, y, hd, -, -⟩ := hB c x hx ho
  rw [hd]
  rfl

theorem Tuned.readLoop (h : w.Tuned c g) (hS : w.Steady) (hB : w.Bound) :
    (w.readLoop c).Tuned c g ∧ (w.readLoop c).Alert c := by
  obtain ⟨x, hx, hc, hf, hh⟩ := h.conn
  have idle : (∀ s, x.reading ≠ .running s) → w.Alert c := fun hn y s hy hr => by
    obtain rfl := Option.some.inj (hx.symm.trans hy)
    exact absurd hr (hn s)
  cases hr : x.reading with
  | notStarted =>
    have he : w.readLoop c = w := by rw [Network.readLoop, hx]; simp only [hr]
    rw [he]
    exact ⟨h, idle (by simp [hr])⟩
  | stopped =>
    have he : w.readLoop c = w := by rw [Network.readLoop, hx]; simp only [hr]
    rw [he]
    exact ⟨h, idle (by simp [hr])⟩
  | running s =>
    cases hd : x.shutdown with
    | false =>
      have hread : x.IsReading := ⟨⟨s, hr⟩, hd⟩
      obtain ⟨ht, ha, -⟩ := h.turn hx hread (hB.isSome_dispatcher hS hx hread)
      exact ⟨ht, ha⟩
    | true =>
      -- The loop was told to stop: it looks at nothing any more.
      have he : w.readLoop c = w.stopReading c := by
        rw [Network.readLoop, hx]
        simp only [hr, hd]
        rfl
      have hwired := (spares_readLoop h.wired (Nat.ne_of_lt c.lt_succ_self)).wired
      rw [he] at hwired ⊢
      obtain ⟨ho, hconn⟩ := outcome_stopReading hx
      have hends : (w.stopReading c).ends c = w.ends c := by
        rw [ends_of_inflow hconn, ends_of_conn hx]
        exact Stream.ends_mute x.stream
      obtain ⟨y, hy, hi⟩ := Option.map_eq_some_iff.mp ((getElem?_inflow _ c).symm.trans hconn)
      have hyc : y.config = x.config := congrArg Intaking.config hi
      have hyr : y.reading = .stopped := congrArg Intaking.reading hi
      obtain ⟨read, rest, hwhole, hm, -⟩ := hh
      refine ⟨⟨hwired, y, hy, hyc.trans hc, hf.congr (congrArg Intaking.stream hi), read, rest, ?_,
        ?_, ?_⟩, fun z t hz hzr => ?_⟩
      · rw [whole, ho.supply hends]
        exact hwhole
      · rw [ho.received, List.append_nil, hm, hyc]
      · rw [hyr]
        trivial
      · obtain rfl := Option.some.inj (hy.symm.trans hz)
        cases hyr.symm.trans hzr

end Network

end Parley

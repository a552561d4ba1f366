import Parley.Proofs.Contiguous

/-!
# The whole of what has arrived

However the bytes of a stream arrive at a connection, and whatever else happens meanwhile, the
connection takes in the string that they make: it hands on the messages that are read from the whole
string, and comes to the end that the reading of the whole string comes to.

- `Input.arrived`: what actions of a user have put into a script.
- `Network.Tuned.step`, `Network.Tuned.act`: what every turn and every action keeps.
- `Network.TakesIn`: how a connection takes in a string.
- `Network.takes_in_whole`: every connection takes in the whole of what has arrived.
-/

namespace Parley

open Parley.Frame

namespace Input

/-- What has arrived in the script of a connection after one more action. -/
def after (c : Nat) (input : Input) : Action → Input
  | .feed d bytes ended =>
    if d = c then
      { input with bytes := input.bytes ++ bytes, ended := input.ended || ended }
    else input
  | .fault d text => if d = c then { input with fault := some text } else input
  | _ => input

/-- Everything that actions have put into the script of a connection. -/
def arrived (c : Nat) (actions : List Action) : Input := actions.foldl (after c) {}

/-- What concerns somebody else is nothing to the input. -/
theorem after_of_not_concerns {c : Nat} {a : Action} (h : a.concerns c = false) (input : Input) :
    input.after c a = input := by
  cases a with
  | feed d bytes ended => exact if_neg (by simpa [Action.concerns] using h)
  | fault d text => exact if_neg (by simpa [Action.concerns] using h)
  | _ => rfl

end Input

/-- What is given to a connection after one more action. -/
def Given.after (c : Nat) (g : Given) (a : Action) : Given :=
  if g.ends = none then { g with input := g.input.after c a } else g

namespace Given

variable {c : Nat} {g : Given}

/-- What concerns somebody else is nothing to what was given. -/
theorem after_of_not_concerns {a : Action} (h : a.concerns c = false) (g : Given) :
    g.after c a = g := by
  rw [after, Input.after_of_not_concerns h, ite_self]

/-- Nothing is given to a connection over pipes later on. -/
theorem after_of_ends {p : Nat × Nat} (h : g.ends = some p) (a : Action) : g.after c a = g :=
  if_neg (by simp [h])

/-- Nothing is fed to a connection between pipes. -/
theorem foldl_after_of_ends {p : Nat × Nat} (h : g.ends = some p) (actions : List Action) :
    actions.foldl (after c) g = g := by
  induction actions with
  | nil => rfl
  | cons a actions ih => rw [List.foldl_cons, after_of_ends h, ih]

/-- What is fed to a script is fed to its input. -/
theorem foldl_after_of_script (h : g.ends = none) (actions : List Action) :
    actions.foldl (after c) g = { g with input := actions.foldl (Input.after c) g.input } := by
  induction actions generalizing g with
  | nil => rfl
  | cons a actions ih =>
    have ha : g.after c a = { g with input := g.input.after c a } := if_pos h
    rw [List.foldl_cons, ha]
    exact ih (g := { g with input := g.input.after c a }) h

end Given

namespace Network

variable {w w' : Network} {c : Nat} {x : Connection} {g : Given}

/-! ## Turns -/

/-- Bytes wait for a connection, whoever has the next turn. -/
theorem waiting_pop (hx : w.conns[c]? = some x) (q : List Task) :
    ({ w with ready := q } : Network).waiting c = w.waiting c :=
  waiting_congr hx hx rfl fun _ _ _ => rfl

/-- A connection stays in tune while a task is taken from the queue. -/
theorem Tuned.pop (h : w.Tuned c g) (q : List Task) :
    ({ w with ready := q } : Network).Tuned c g := by
  obtain ⟨x, hx, hc, hf, read, rest, hwhole, hm, hat⟩ := h.conn
  refine ⟨h.wired.same (fun _ => rfl) fun _ => rfl, x, hx, hc, hf, read, rest, hwhole, hm, ?_⟩
  rw [waiting_pop hx]
  exact hat

/-- One step more of the tasks is reached as well. -/
theorem Reachable.step (h : Reachable w) (hs : w.step = some w') : Reachable w' := by
  obtain ⟨t, q, hq, rfl⟩ := step_eq_some.mp hs
  rw [← run_settle_one hq]
  exact h.run [.settle 1]

/-- **Every turn** keeps both invariants: that of the loop that reads takes it to the end of what
has arrived, and all others spare it. -/
theorem Tuned.step (h : w.Tuned c g) (ha : w.Alert c) (hw : Reachable w)
    (hs : w.step = some w') : w'.Tuned c g ∧ w'.Alert c := by
  obtain ⟨t, q, hq, rfl⟩ := step_eq_some.mp hs
  have hv := h.pop q
  by_cases ht : t = .reader c
  · subst ht
    exact hv.readLoop (hw.steady.pop q) (hw.path.bound.unmoved (.same rfl rfl))
  · have hspares := spares_perform hv.wired ht
    obtain ⟨x, hx, -⟩ := hv.conn
    have hpop : ({ w with ready := q } : Network).Alert c := by
      intro y s hy hr
      have hwait := waiting_pop (w := w) hy q
      rw [hwait]
      refine (ha y s hy hr).imp_left fun hm => ?_
      rw [hq] at hm
      exact (List.mem_cons.mp hm).resolve_left (Ne.symm ht)
    exact ⟨hv.spares hspares, hpop.spares hv.wired hx hspares⟩

/-- A connection stays in tune and alert while the tasks have their turns. -/
theorem Tuned.settle (h : w.Tuned c g) (ha : w.Alert c) (hw : Reachable w) (n : Nat) :
    (settle n w).Tuned c g ∧ (settle n w).Alert c := by
  refine (settle_induction (P := fun v => Reachable v ∧ v.Tuned c g ∧ v.Alert c)
    ⟨hw, h, ha⟩ ?_ n).2
  rintro u v hs ⟨hu, ht, hal⟩
  exact ⟨hu.step hs, ht.step hal hu hs⟩

/-! ## Actions -/

/-- What a script has in store. -/
theorem Tuned.supply (h : w.Tuned c g) (hn : g.ends = none) : w.supply c = [] := by
  obtain ⟨x, hx, -, hf, -⟩ := h.conn
  rw [Network.supply, ends_of_conn hx, hf.ends, hn]

/-- Something is put into a script behind what is there, and the loop that reads is woken. -/
theorem Tuned.put (h : w.Tuned c g) (hn : g.ends = none) {p : Input → Input}
    {arrived : List UInt8} (hb : ∀ i, (p i).bytes = i.bytes ++ arrived)
    (hp : ∀ i j, i.ended = j.ended → i.fault = j.fault →
      (p i).ended = (p j).ended ∧ (p i).fault = (p j).fault) :
    ((w.modifyScript c fun (input, output) => (p input, output)).wakeReader c).Tuned c
        { g with input := p g.input } ∧
      ((w.modifyScript c fun (input, output) => (p input, output)).wakeReader c).Alert c := by
  have hsupply := h.supply hn
  obtain ⟨x, hx, hc, hf, hh⟩ := h.conn
  obtain ⟨input, output, hs, hended, hfault⟩ := hf.eq_script hn
  let v := w.modifyScript c fun (input, output) => (p input, output)
  let y : Connection := { x with stream := .script (p input) output }
  have hv : v.conns[c]? = some y := by
    show (w.modifyConn c _).conns[c]? = _
    rw [getElem?_modifyConn_self, hx, Option.map_some, hs]
  -- Waking the reader changes the queue only.
  have hy : (v.wakeReader c).conns[c]? = some y := by
    rw [wakeReader_eq]
    exact hv
  have hwired : (v.wakeReader c).Wired := by
    have hput := spares_modifyScript h.wired (Nat.ne_of_lt c.lt_succ_self)
      fun (input, output) => (p input, output)
    exact (spares_of_inflow hput.wired (roused_wakeReader v c).ready
      (inflow_wakeReader v c) (c + 1)).wired
  have hnone : (v.wakeReader c).supply c = [] := by
    -- No pipe supplies anything, so all there is to read is what was there and what arrived now.
    rw [Network.supply, ends_of_conn hy]
    rfl
  have hwhole : (v.wakeReader c).whole c { g with input := p g.input } =
      w.whole c g ++ arrived := by
    rw [whole, whole, hnone, hsupply, hb, List.append_nil, List.append_nil]
  refine ⟨⟨hwired, y, hy, hc, ?_, ?_⟩, fun z s hz hr => .inl ?_⟩
  · -- Given and held still agree, on the end and on the fault as well.
    exact ⟨hn, hp input g.input hended hfault⟩
  · rw [hwhole]
    refine hh.arrive rfl rfl ?_ ?_
    · rw [wakeReader_eq]
      rfl
    · rw [waiting_script hy rfl, waiting_script hx hs]
      exact hb input
  · -- The reader has been woken, which is what is asked of a loop that has something to read.
    obtain rfl := Option.some.inj (hy.symm.trans hz)
    exact mem_wakeReader hv hr

/-- Nothing can be put into pipes. -/
theorem spares_put (hW : w.Wired) (hn : w.ends c ≠ none) (f : Input × Output → Input × Output) :
    Spares c w ((w.modifyScript c f).wakeReader c) := by
  have hput : (w.modifyScript c f).inflow = w.inflow := by
    refine inflow_modifyConn w c fun x hx => ?_
    cases hs : x.stream with
    | script input output =>
      rw [ends_of_conn hx, hs] at hn
      exact absurd rfl hn
    | pipes i o => rfl
  have hready : w.ready <+: ((w.modifyScript c f).wakeReader c).ready :=
    (roused_wakeReader (w.modifyScript c f) c).ready
  exact spares_of_inflow hW hready ((inflow_wakeReader _ c).trans hput) c

/-- A connection that is connected has read nothing so far. -/
theorem Tuned.joined (h : w.Tuned c g) (hS : w.Steady) {x : Connection} (hx : w.conns[c]? = some x)
    (hp : x.phase = .disconnected) (d : Nat) :
    (w.joined c d).Tuned c g ∧ (w.joined c d).Alert c := by
  -- A connection that is not connected yet has read nothing.
  obtain ⟨x', hx', hc, hf, hh⟩ := h.conn
  obtain rfl := Option.some.inj (hx.symm.trans hx')
  have hwired := (spares_joined h.wired (Nat.ne_of_lt c.lt_succ_self) d).wired
  have hunused := (hS.sound.conn c x hx).unused_of_disconnected hp
  let u :=
    (w.modifyConn c fun x => x.start d).modifyDispatcher d fun x => { x with bound := some c }
  obtain ⟨q, hq, he⟩ := roused_joined w c d
  -- The connection starts to read from its stream as it is: nothing is taken from it by that.
  have hy : (({ u with ready := q } : Network)).conns[c]? = some (x.start d) := by
    show (w.modifyConn c fun x => x.start d).conns[c]? = _
    rw [getElem?_modifyConn_self, hx]
    rfl
  have hmem : Task.reader c ∈ (w.joined c d).ready :=
    (roused_wake _ (.writer c)).ready.subset (mem_wake u _)
  have hends : ({ u with ready := q } : Network).ends c = w.ends c := by
    rw [ends_of_conn hy, ends_of_conn hx]
    rfl
  have hwait : ({ u with ready := q } : Network).waiting c = w.waiting c :=
    waiting_congr hx hy rfl fun _ _ _ => rfl
  have hwhole : ({ u with ready := q } : Network).whole c g = w.whole c g := by
    rw [whole, whole, Network.supply, Network.supply, hends]
    rfl
  obtain ⟨read, rest, hw, hm, hat⟩ := hh
  -- Nothing read so far, and everything that is there waits.
  rw [hunused.reading] at hat
  obtain ⟨rfl, rfl⟩ := hat
  refine ⟨?_, fun _ _ _ _ => .inl hmem⟩
  rw [he] at hwired ⊢
  refine ⟨hwired, x.start d, hy, hc, hf, [], (w.waiting c).1, ?_, hm, ?_⟩
  · rw [hwhole, hw]
  · rw [hwait]
    exact ⟨rfl, [], rfl, rfl⟩

/-- A connection stays in tune and alert when it connects, or fails to. -/
theorem Tuned.connect (h : w.Tuned c g) (ha : w.Alert c) (hS : w.Steady) (d : Nat) :
    (w.connect c d).2.Tuned c g ∧ (w.connect c d).2.Alert c := by
  rcases connect_cases w c d with ⟨x, hx, hp, -, -, hw⟩ | ⟨e, hw⟩ | ⟨x, hx, hp, hs, -⟩
  · rw [hw]
    exact h.joined hS hx hp d
  · rw [hw]
    exact ⟨h, ha⟩
  · have hu := (hS.sound.conn c x hx).unused_of_disconnected hp
    cases hs.symm.trans (hu.hasStream hp)

/-- **Every action** keeps both invariants. What it puts into the script counts from then on. -/
theorem Tuned.act (h : w.Tuned c g) (ha : w.Alert c) (hw : Reachable w) (a : Action) :
    (w.act a).2.Tuned c (g.after c a) ∧ (w.act a).2.Alert c := by
  obtain ⟨x, hx, -, hf, -⟩ := h.conn
  have spared : ∀ {v : Network}, Spares c w v → v.Tuned c g ∧ v.Alert c := fun hs =>
    ⟨h.spares hs, ha.spares h.wired hx hs⟩
  have hends := h.ends
  -- An action that concerns the connection: it connects, is fed, or has a fault put in its way. A
  -- stream of pipes takes nothing from outside.
  by_cases hc : a.concerns c = true
  · cases a with
    | connect d e =>
      obtain rfl : d = c := by simpa [Action.concerns] using hc
      have hg : g.after d (.connect d e) = g := ite_self _
      rw [hg]
      exact h.connect ha hw.steady e
    | feed d bytes ended =>
      obtain rfl : d = c := by simpa [Action.concerns] using hc
      cases hg : g.ends with
      | none =>
        have hafter : g.after d (.feed d bytes ended) = { g with input := { g.input with
            bytes := g.input.bytes ++ bytes, ended := g.input.ended || ended } } := by
          rw [Given.after, if_pos hg, Input.after, if_pos rfl]
        rw [hafter]
        exact h.put hg (fun _ => rfl) fun i j he hfault => ⟨congrArg (· || ended) he, hfault⟩
      | some p =>
        rw [Given.after_of_ends hg]
        exact spared (spares_put h.wired (by simp [hends, hg]) _)
    | fault d text =>
      obtain rfl : d = c := by simpa [Action.concerns] using hc
      cases hg : g.ends with
      | none =>
        have hafter : g.after d (.fault d text) =
            { g with input := { g.input with fault := some text } } := by
          rw [Given.after, if_pos hg, Input.after, if_pos rfl]
        rw [hafter]
        exact h.put hg (fun i => (List.append_nil _).symm) fun i j he _ => ⟨he, rfl⟩
      | some p =>
        rw [Given.after_of_ends hg]
        exact spared (spares_put h.wired (by simp [hends, hg]) _)
    | _ => exact absurd hc Bool.false_ne_true
  · -- Any other action spares it; and the turns of the tasks keep it in tune.
    rw [Given.after_of_not_concerns (Bool.eq_false_iff.mpr hc)]
    by_cases hs : ∃ n, a = .settle n
    · obtain ⟨n, rfl⟩ := hs
      exact h.settle ha hw n
    · have hlt : c < w.conns.length := (List.getElem?_eq_some_iff.mp hx).1
      exact spared (spares_act h.wired (.inl hlt) (Bool.eq_false_iff.mpr hc)
        fun n hn => hs ⟨n, hn⟩)

/-- Whatever is done, step after step, keeps a connection in tune. -/
theorem Tuned.run (h : w.Tuned c g) (ha : w.Alert c) (hw : Reachable w) (actions : List Action) :
    (run w actions).Tuned c (actions.foldl (Given.after c) g) ∧ (run w actions).Alert c := by
  induction actions generalizing w g with
  | nil => exact ⟨h, ha⟩
  | cons a actions ih =>
    obtain ⟨hv, hva⟩ := h.act ha hw a
    exact ih hv hva (hw.run [a])

/-! ## New connections -/

/-- A connection that was just made has read nothing, and nothing has arrived. -/
theorem Tuned.fresh (hw : Reachable w) (hx : w.conns[c]? = some x) (hr : x.reading = .notStarted)
    (hf : (Given.mk x.config x.stream.ends {}).Fits x.stream) (hwait : (w.waiting c).1 = [])
    (hsup : w.supply c = []) (hrec : w.journal.received c = []) :
    w.Tuned c ⟨x.config, x.stream.ends, {}⟩ ∧ w.Alert c := by
  refine ⟨⟨hw.wired, x, hx, rfl, hf, [], [], ?_, hrec, ?_⟩, fun y s hy hs => ?_⟩
  · rw [whole, hsup]
  · rw [hr, hwait]
    exact ⟨rfl, rfl⟩
  · obtain rfl := Option.some.inj (hx.symm.trans hy)
    cases hr.symm.trans hs

/-- A connection that does not exist has received nothing. -/
theorem Reachable.received_eq_nil (hw : Reachable w) (hc : w.conns.length ≤ c) :
    w.journal.received c = [] :=
  Journal.received_eq_nil (hw.sound.other c (List.getElem?_eq_none hc))

/-- A script that is opened begins in tune. -/
theorem Tuned.openScript (hw : Reachable w) (config : Config) :
    (w.openScript config).2.Tuned w.conns.length ⟨config, none, {}⟩ ∧
      (w.openScript config).2.Alert w.conns.length := by
  let x : Connection := { config, stream := .script {} {} }
  have hx : (w.openScript config).2.conns[w.conns.length]? = some x := List.getElem?_concat_length
  refine Tuned.fresh (x := x) (hw.run [.openScript config]) hx rfl ⟨rfl, rfl, rfl⟩ ?_ ?_ ?_
  · rw [waiting_script hx rfl]
  · rw [Network.supply, ends_of_conn hx]
    rfl
  · exact hw.received_eq_nil (Nat.le_refl _)

/-- Both connections over a new pair of pipes. -/
theorem Tuned.openPipes (hw : Reachable w) (capacity : Nat) (first second : Config) :
    ((w.openPipes capacity first second).2.Tuned w.conns.length
        ⟨first, some (w.pipes.length, w.pipes.length + 1), {}⟩ ∧
      (w.openPipes capacity first second).2.Alert w.conns.length) ∧
    ((w.openPipes capacity first second).2.Tuned (w.conns.length + 1)
        ⟨second, some (w.pipes.length + 1, w.pipes.length), {}⟩ ∧
      (w.openPipes capacity first second).2.Alert (w.conns.length + 1)) := by
  let a := w.conns.length
  let p := w.pipes.length
  let v := (w.openPipes capacity first second).2
  have hv : Reachable v := hw.run [.openPipes capacity first second]
  have hx : v.conns[a]? = some { config := first, stream := .pipes p (p + 1) } :=
    getElem?_append_two.mpr (.inr (.inl ⟨rfl, rfl⟩))
  have hy : v.conns[a + 1]? = some { config := second, stream := .pipes (p + 1) p } :=
    getElem?_append_two.mpr (.inr (.inr ⟨rfl, rfl⟩))
  have hi : v.pipes[p]? = some { capacity, reader := a, writer := a + 1 } :=
    getElem?_append_two.mpr (.inr (.inl ⟨rfl, rfl⟩))
  have ho : v.pipes[p + 1]? = some { capacity, reader := a + 1, writer := a } :=
    getElem?_append_two.mpr (.inr (.inr ⟨rfl, rfl⟩))
  -- Before it existed nobody spoke of it.
  have other : ∀ c, a ≤ c → ∀ e ∈ v.journal, e.concerns c = false := fun c hc =>
    hw.sound.other c (List.getElem?_eq_none hc)
  -- Both ends alike: the pipe is empty, and nothing has been written and received.
  constructor
  · refine Tuned.fresh hv hx rfl ⟨rfl, rfl⟩ ?_ ?_ ?_
    · rw [waiting_pipes hx rfl hi]
    · rw [Network.supply, ends_of_conn hx]
      show (v.sides p).elim [] _ = _
      rw [sides_eq_some hi]
      exact Journal.written_eq_nil (other _ (Nat.le_succ a))
    · exact Journal.received_eq_nil (other _ (Nat.le_refl a))
  · refine Tuned.fresh hv hy rfl ⟨rfl, rfl⟩ ?_ ?_ ?_
    · rw [waiting_pipes hy rfl ho]
    · rw [Network.supply, ends_of_conn hy]
      show (v.sides (p + 1)).elim [] _ = _
      rw [sides_eq_some ho]
      exact Journal.written_eq_nil (other _ (Nat.le_refl a))
    · exact Journal.received_eq_nil (other _ (Nat.le_succ a))

/-! ## The whole -/

/-- How a connection takes in a string that has arrived, and what follows it. -/
structure TakesIn (w : Network) (c : Nat) (config : Config) (whole : List UInt8)
    (sequel : Sequel) : Prop where
  /-- The messages in a first part of it have been handed on. -/
  soFar : ∃ read, read <+: whole ∧
    w.journal.received c = (readMessages config.maxContentLength read).1.map Prod.fst
  /-- A loop that stands in the queue comes to its turn. -/
  soon : .reader c ∈ w.ready →
    ∃ n q, n < w.ready.length ∧ (settle n w).ready = .reader c :: q
  /-- In its turn the loop takes in the whole string. Then it goes on, or the end of the connection
  begins, and nothing more is taken in. -/
  turn : w.IsConnected c → ∀ q, w.ready = .reader c :: q →
    let v := run w [.settle 1]
    let result := verdict config.maxContentLength .start whole sequel
    v.journal.received c = (readMessages config.maxContentLength whole).1.map Prod.fst ∧
    v.journal.faults = result.fault?.toList ++ w.journal.faults ∧
    v.journal.cuts c = result.cuts config.flushOnEnd ∧
    (result ≠ .goesOn → ∀ actions,
      (run v actions).journal.received c = v.journal.received c)
  /-- A loop that does not stand in the queue has taken in the whole string, and it goes on. -/
  idle : w.IsConnected c → .reader c ∉ w.ready →
    w.journal.received c = (readMessages config.maxContentLength whole).1.map Prod.fst ∧
    verdict config.maxContentLength .start whole .open = .goesOn ∧ sequel = .open

/-- A task has its turn when the tasks before it have had theirs. -/
theorem ready_settle {t : Task} {a b : List Task} (hq : w.ready = a ++ t :: b) :
    ∃ q, (Network.settle a.length w).ready = t :: q := by
  induction a generalizing w b with
  | nil => exact ⟨b, hq⟩
  | cons s a ih =>
    let v := ({ w with ready := a ++ t :: b } : Network).perform s
    -- What is woken meanwhile stands behind.
    obtain ⟨more, hmore⟩ := (moves_perform ({ w with ready := a ++ t :: b } : Network) s).ready
    rw [List.length_cons, Network.settle, step_of_ready hq]
    refine ih (w := v) (b := b ++ more) ?_
    rw [← hmore, List.append_assoc]
    rfl

/-- A connection that is connected knows where in the string it is. -/
theorem Steady.running (h : w.Steady) (hc : w.IsConnected c) :
    ∃ x s, w.conns[c]? = some x ∧ x.phase = .connected ∧ x.IsReading ∧
      x.reading = .running s := by
  obtain ⟨x, hx, hp⟩ := hc
  obtain ⟨l, hl⟩ := h.live hx hp
  obtain ⟨s, hs⟩ := hl.reading.1
  exact ⟨x, s, hx, hp, hl.reading, hs⟩

/-- What a connection in tune and alert has taken in. -/
theorem Tuned.takesIn (h : w.Tuned c g) (ha : w.Alert c) (hw : Reachable w) :
    TakesIn w c g.config (w.whole c g) (w.waiting c).2 := by
  constructor
  case soFar =>
    obtain ⟨x, -, hc, -, read, rest, hwhole, hm, -⟩ := h.conn
    refine ⟨read, ⟨rest, hwhole.symm⟩, ?_⟩
    rw [map_fst_readMessages, hm, hc]
  case soon =>
    intro hm
    obtain ⟨a, b, hq⟩ := List.append_of_mem hm
    obtain ⟨q, hq'⟩ := ready_settle hq
    refine ⟨a.length, q, ?_, hq'⟩
    rw [hq, List.length_append, List.length_cons]
    omega
  case turn =>
    intro hc q hq v result
    let u : Network := { w with ready := q }
    obtain ⟨x, s, hx, hp, hr, hs⟩ := (hw.steady.pop q).running (w := u) hc
    have hv : v = u.readLoop c := run_settle_one hq
    have hu : u.Tuned c g := h.pop q
    have hwait : u.waiting c = w.waiting c := waiting_pop (w := w) hx q
    have hB : u.Bound := hw.path.bound.unmoved (.same rfl rfl)
    obtain ⟨-, -, -, hrec, hfaults⟩ :=
      hu.turn hx hr (hB.isSome_dispatcher (hw.steady.pop q) hx hr)
    have hcuts := cuts_readLoop (hw.steady.pop q) hx hp hs
    -- What the turn comes to is what the whole string comes to.
    have hverdict := hu.verdict_whole hx hs (u.waiting c).2
    obtain ⟨y, hy, hyc, -⟩ := hu.conn
    obtain rfl := Option.some.inj (hx.symm.trans hy)
    have hresult : (verdict x.config.maxContentLength s (u.takeInput c).1
        (u.takeInput c).2.1) = result := by
      rw [hyc]
      refine hverdict.symm.trans ?_
      rw [hwait]
      rfl
    rw [hresult, hyc, ← hv] at hcuts
    rw [hwait, ← hv] at hfaults
    refine ⟨?_, hfaults, hcuts, ?_⟩
    · rw [map_fst_readMessages, hv, hrec]
      rfl
    · intro hne actions
      have hvr : Reachable v := hw.run [.settle 1]
      obtain ⟨flush, hf⟩ : ∃ flush, (v.journal.cuts c).head? = some flush := by
        rw [hcuts]
        cases hres : result with
        | goesOn => exact absurd hres hne
        | ended => exact ⟨_, rfl⟩
        | failed e => exact ⟨_, rfl⟩
      obtain ⟨z, l, hz, he⟩ := hvr.ended hf
      obtain ⟨_, es, -, hj, hm⟩ := (path_run v actions).conn hvr.housed hz
      rw [hj, Journal.received_append, (he.frozen hm).2.2, List.append_nil]
  case idle =>
    intro hc hm
    obtain ⟨x, s, hx, -, -, hs⟩ := hw.steady.running hc
    have hwait : w.waiting c = ([], .open) := (ha x s hx hs).resolve_left hm
    have hverdict := h.verdict_whole hx hs .open
    obtain ⟨y, hy, hyc, -, read, rest, hwhole, hrec, hat⟩ := h.conn
    obtain rfl := Option.some.inj (hx.symm.trans hy)
    rw [hs, hwait] at hat
    obtain ⟨rfl, -⟩ := hat
    refine ⟨?_, ?_, by rw [hwait]⟩
    · rw [map_fst_readMessages, hrec, hyc, hwhole, List.append_nil]
    · rw [hverdict, hwait]
      rfl

/-- What follows the bytes that have come through a pipe. -/
def pipeSequel (w : Network) (i : Nat) : Sequel :=
  if (w.pipes[i]?).any Pipe.closed then .ended else .open

/-- The pipe from one of two connections to the other one. -/
theorem Tuned.pipe {d i o : Nat} {config config' : Config}
    (h : w.Tuned c ⟨config, some (i, o), {}⟩) (h' : w.Tuned d ⟨config', some (o, i), {}⟩) :
    ∃ p, w.pipes[i]? = some p ∧ p.reader = c ∧ p.writer = d ∧
      w.waiting c = (p.held, w.pipeSequel i) := by
  -- The pipe that one reads from is the pipe that the other one writes into.
  obtain ⟨a, hsides⟩ := h.wired.writer h'.ends
  obtain ⟨b, hb⟩ := h.wired.reader h.ends
  obtain ⟨rfl, rfl⟩ := Prod.mk.inj (Option.some.inj (hsides.symm.trans hb))
  obtain ⟨p, hp, hdoor⟩ := Option.map_eq_some_iff.mp hsides
  obtain ⟨hreader, hwriter⟩ := Prod.mk.inj hdoor
  obtain ⟨x, hx, -, hf, -⟩ := h.conn
  refine ⟨p, hp, hreader, hwriter, ?_⟩
  rw [waiting_pipes hx (hf.eq_pipes rfl) hp, pipeSequel, hp, Option.any_some]

/-- What a connection over a pipe takes in is what the other one has written. -/
theorem Tuned.takesIn_pipes {d i o : Nat} {config config' : Config}
    (h : w.Tuned c ⟨config, some (i, o), {}⟩) (ha : w.Alert c)
    (h' : w.Tuned d ⟨config', some (o, i), {}⟩) (hw : Reachable w) :
    TakesIn w c config (w.journal.written d) (w.pipeSequel i) := by
  obtain ⟨p, hp, -, hwriter, hwait⟩ := h.pipe h'
  have hall := h.takesIn ha hw
  have hwhole : w.whole c ⟨config, some (i, o), {}⟩ = w.journal.written d := by
    rw [whole, Network.supply, h.ends]
    show [] ++ (w.sides i).elim [] _ = _
    rw [sides_eq_some hp, ← hwriter]
    rfl
  rwa [hwhole, hwait] at hall

/-- What a connection over a script takes in is what has been put into it. -/
theorem Tuned.takesIn_script {config : Config} {input : Input} (h : w.Tuned c ⟨config, none, input⟩)
    (ha : w.Alert c) (hw : Reachable w) : TakesIn w c config input.bytes (sequelOf input) := by
  have hall := h.takesIn ha hw
  have hwhole : w.whole c ⟨config, none, input⟩ = input.bytes := by
    rw [whole, h.supply rfl, List.append_nil]
  obtain ⟨x, hx, -, hf, -⟩ := h.conn
  have hsequel : (w.waiting c).2 = sequelOf input := by
    obtain ⟨rest, output, hs, hended, hfault⟩ := hf.eq_script rfl
    rw [waiting_script hx hs]
    simp only [sequelOf, hended, hfault]
  rwa [hwhole, hsequel] at hall

/-- What an action has led to stands between what was done before it and what is done after it. -/
theorem run_middle (before actions : List Action) (a : Action) :
    run {} (before ++ a :: actions) = run ((run {} before).act a).2 actions := by
  rw [run, List.foldl_append, List.foldl_cons]
  rfl

/-- Both connections over a pair of pipes know where in their strings they are, whatever has been
done since. -/
theorem tuned_run_openPipes (before actions : List Action) (capacity : Nat)
    (first second : Config) :
    let c := (run {} before).conns.length
    let i := (run {} before).pipes.length
    let w := run {} (before ++ .openPipes capacity first second :: actions)
    (w.Tuned c ⟨first, some (i, i + 1), {}⟩ ∧ w.Alert c) ∧
      (w.Tuned (c + 1) ⟨second, some (i + 1, i), {}⟩ ∧ w.Alert (c + 1)) := by
  have hb : Reachable (run {} before) := ⟨before, rfl⟩
  have hw := hb.run [.openPipes capacity first second]
  intro c i w
  have hwr : w = run ((run {} before).openPipes capacity first second).2 actions :=
    run_middle before actions _
  obtain ⟨⟨hx, hxa⟩, hy, hya⟩ := Tuned.openPipes hb capacity first second
  have hx := hx.run hxa hw actions
  have hy := hy.run hya hw actions
  rw [Given.foldl_after_of_ends rfl] at hx hy
  rw [hwr]
  exact ⟨hx, hy⟩

/-- **The whole of what has arrived.** In every use of a network each connection takes in the
string that its bytes make, in whatever pieces they came and whatever happened meanwhile: the bytes
that were put into its script, or those that the connection at the other end of its pipe has
written. What it comes to at the end of a stream is why the reading of the whole string ends, and
what follows a failure changes nothing: neither the messages nor the error. -/
theorem takes_in_whole :
    (∀ (limit : Nat) (whole : List UInt8),
      verdict limit .start whole .ended = (readMessages limit whole).2.elim .ended .failed ∧
      (∀ text, verdict limit .start whole (.fault text) =
        if verdict limit .start whole .open = .goesOn then .failed (.stream text)
        else verdict limit .start whole .open) ∧
      ∀ e, verdict limit .start whole .open = .failed e → ∀ more,
        (readMessages limit (whole ++ more)).1.map Prod.fst =
            (readMessages limit whole).1.map Prod.fst ∧
          (readMessages limit (whole ++ more)).2 = some e) ∧
    (∀ (before actions : List Action) (config : Config),
      let c := (run {} before).conns.length
      let input := Input.arrived c actions
      TakesIn (run {} (before ++ .openScript config :: actions)) c config input.bytes
        (sequelOf input)) ∧
    ∀ (before actions : List Action) (capacity : Nat) (first second : Config),
      let c := (run {} before).conns.length
      let i := (run {} before).pipes.length
      let w := run {} (before ++ .openPipes capacity first second :: actions)
      TakesIn w c first (w.journal.written (c + 1)) (w.pipeSequel i) ∧
        TakesIn w (c + 1) second (w.journal.written c) (w.pipeSequel (i + 1)) := by
  refine ⟨fun limit whole => ⟨verdict_ended limit whole, verdict_fault .start whole,
    fun e he more => readMessages_append_of_failed he more⟩,
    fun before actions config => ?_, fun before actions capacity first second => ?_⟩
  · -- Opened with a script, and fed from then on.
    have hb : Reachable (run {} before) := ⟨before, rfl⟩
    have hw := hb.run [.openScript config]
    intro c input
    obtain ⟨ht, ha⟩ := Tuned.openScript hb config
    obtain ⟨ht, ha⟩ := ht.run ha hw actions
    rw [Given.foldl_after_of_script rfl] at ht
    rw [run_middle]
    exact ht.takesIn_script ha (hw.run actions)
  · -- Opened between pipes: what arrives is what the other end wrote.
    intro c i w
    have hw : Reachable w := ⟨_, rfl⟩
    obtain ⟨⟨hx, hxa⟩, hy, hya⟩ := tuned_run_openPipes before actions capacity first second
    exact ⟨hx.takesIn_pipes hxa hy hw, hy.takesIn_pipes hya hx hw⟩

/-- A frame that arrives in two pieces, cut inside a character, and then the end of the stream. -/
theorem takes_in_whole_cut_character :
    let whole := (Message.notification "é" .null).frame
    let actions : List Action := [.openDispatcher, .connect 0 0, .feed 0 (whole.take 51) false,
      .settle 9, .feed 0 (whole.drop 51) true]
    let w := run {} (.openScript {} :: actions)
    let v := run w [.settle 1]
    w.journal.received 0 = [] ∧ v.journal.received 0 = [.notification "é" .null] ∧
      v.journal.received 0 = (readMessages defaultMaxContentLength whole).1.map Prod.fst ∧
      v.journal.cuts 0 = [true] := by
  intro whole actions w v
  have hc : w.IsConnected 0 := Option.map_eq_some_iff.mp
    (show (w.conns[0]?).map Connection.phase = some .connected by decide +kernel)
  have hready : w.ready = [.reader 0] := by decide +kernel
  have hinput : (Input.arrived 0 actions).bytes = whole := by decide +kernel
  obtain ⟨hrec, -, -, -⟩ := (takes_in_whole.2.1 [] actions {}).turn hc [] hready
  exact ⟨by decide +kernel, by decide +kernel, hinput ▸ hrec, by decide +kernel⟩

end Network

end Parley

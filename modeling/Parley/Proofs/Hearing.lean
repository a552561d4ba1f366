import Parley.Proofs.Arrival
import Parley.Proofs.Binding
import Parley.Proofs.Reading

/-!
# What a connection takes in

At every moment a connection has read a first part of what has arrived, and handed on the messages
in it. The rest waits for its next turn, in which all of it is read.

- `Network.waiting`, `Network.supply`: what is still to be read, and what came through a pipe.
- `Network.Outcome`: what the turn of a loop that reads leaves in the journal.
- `Network.Hears`: how far a connection has read.
-/

namespace Parley

open Parley.Frame

/-- A stream when everything has been read that is there. -/
def Stream.emptied : Stream → Stream
  | .script input output => .script { input with bytes := [] } output
  | .pipes incoming outgoing => .pipes incoming outgoing

theorem Stream.mute_eq_script {s t : Stream} (h : t.mute = s.mute) {input : Input} {output : Output}
    (hs : s = .script input output) : ∃ output', t = .script input output' := by
  subst hs
  cases t with
  | script input' output' =>
    obtain rfl := (Stream.script.inj h).1
    exact ⟨output', rfl⟩
  | pipes i o => cases h

theorem Stream.mute_eq_pipes {s t : Stream} (h : t.mute = s.mute) {i o : Nat}
    (hs : s = .pipes i o) : t = .pipes i o := by
  subst hs
  cases t with
  | script input output => cases h
  | pipes i' o' => exact h

/-- The error that a verdict reports. -/
def Network.Verdict.fault? : Verdict → Option ReadError
  | .failed e => some e
  | .goesOn | .ended => none

namespace Network

variable {u v w w' : Network} {c : Nat} {x y : Connection}

/-! ## What waits -/

/-- The bytes that a connection can read now, and what follows them. -/
def waiting (w : Network) (c : Nat) : List UInt8 × Sequel :=
  ((w.takeInput c).1, (w.takeInput c).2.1)

theorem waiting_script (hx : w.conns[c]? = some x) {input : Input} {output : Output}
    (hs : x.stream = .script input output) : w.waiting c = (input.bytes, sequelOf input) := by
  simp only [waiting, takeInput, hx, Option.map_some, hs]

theorem waiting_pipes (hx : w.conns[c]? = some x) {i o : Nat} (hs : x.stream = .pipes i o)
    {p : Pipe} (hp : w.pipes[i]? = some p) :
    w.waiting c = (p.held, if p.closed then .ended else .open) := by
  simp only [waiting, takeInput, hx, Option.map_some, hs, hp]

theorem waiting_absent (hx : w.conns[c]? = some x) {i o : Nat} (hs : x.stream = .pipes i o)
    (hp : w.pipes[i]? = none) : w.waiting c = ([], .open) := by
  simp only [waiting, takeInput, hx, Option.map_some, hs, hp]

/-- What waits depends on the script, or on the pipe. -/
theorem waiting_congr (hx : w.conns[c]? = some x) (hy : w'.conns[c]? = some y)
    (hs : y.stream.mute = x.stream.mute)
    (hp : ∀ i o, x.stream = .pipes i o → w'.pipes[i]? = w.pipes[i]?) :
    w'.waiting c = w.waiting c := by
  cases hst : x.stream with
  | script input output =>
    obtain ⟨output', ht⟩ := Stream.mute_eq_script hs hst
    rw [waiting_script hx hst, waiting_script hy ht]
  | pipes i o =>
    have ht := Stream.mute_eq_pipes hs hst
    have hp := hp i o hst
    cases hi : w.pipes[i]? with
    | none => rw [waiting_absent hx hst hi, waiting_absent hy ht (hp.trans hi)]
    | some p => rw [waiting_pipes hx hst hi, waiting_pipes hy ht (hp.trans hi)]

/-- What has been written into the pipe that a connection reads from. -/
def supply (w : Network) (c : Nat) : List UInt8 :=
  match w.ends c with
  | none => []
  | some (i, _) => (w.sides i).elim [] fun p => w.journal.written p.2

/-- What arrives at a connection is what waits longer for it afterwards. -/
theorem Spares.arrives (h : Spares c w w') (hW : w.Wired) (hx : w.conns[c]? = some x) :
    ∃ y arrived, w'.conns[c]? = some y ∧ y.intaking = x.intaking ∧
      w'.supply c = w.supply c ++ arrived ∧
      (w'.waiting c).1 = (w.waiting c).1 ++ arrived ∧
      ((w'.waiting c = w.waiting c) ∨ ∀ s, x.reading = .running s → .reader c ∈ w'.ready) := by
  have hc := h.conn
  rw [getElem?_inflow, getElem?_inflow, hx] at hc
  obtain ⟨y, hy, hi⟩ := Option.map_eq_some_iff.mp hc
  have hmute : y.stream.mute = x.stream.mute := congrArg Intaking.stream hi
  have hends : w'.ends c = w.ends c := by rw [ends_eq, ends_eq, h.conn]
  -- A script hears nothing from others: it is fed from outside.
  cases hs : x.stream with
  | script input output =>
    have hnone : w.ends c = none := by
      rw [ends_of_conn hx, hs]
      rfl
    have hwait : w'.waiting c = w.waiting c := waiting_congr hx hy hmute fun i o hp =>
      by cases hs.symm.trans hp
    refine ⟨y, [], hy, hi, ?_, ?_, .inl hwait⟩
    · rw [supply, supply, hends, hnone]
      rfl
    · rw [hwait, List.append_nil]
  -- A pipe may have been filled by its writer, or closed; the reader is woken in both cases.
  | pipes i o =>
    have hsome : w.ends c = some (i, o) := by
      rw [ends_of_conn hx, hs]
      rfl
    obtain ⟨b, hb⟩ := hW.reader hsome
    obtain ⟨p, hp, hsides⟩ := Option.map_eq_some_iff.mp hb
    obtain ⟨hr, rfl⟩ := Prod.mk.inj hsides
    obtain ⟨arrived, closed, hp', hwr, ha⟩ := h.pipe hp hr
    have hst := Stream.mute_eq_pipes hmute hs
    refine ⟨y, arrived, hy, hi, ?_, ?_, ?_⟩
    · simp only [supply, hends, hsome, hb, sides_eq_some hp', Option.elim_some]
      exact hwr
    · rw [waiting_pipes hx hs hp, waiting_pipes hy hst hp']
    · rcases ha with ⟨rfl, rfl⟩ | ha
      · refine .inl ?_
        rw [waiting_pipes hx hs hp, waiting_pipes hy hst hp', List.append_nil]
      · refine .inr fun s hr => ha x.intaking s ?_ hr
        rw [getElem?_inflow, hx]
        rfl

/-! ## The turn of a loop that reads -/

/-- What the loop that reads of a connection leaves in the journal: the messages that it hands on,
and the error with which it fails, if it does. Nothing is written meanwhile. -/
structure Outcome (c : Nat) (ms : List Message) (es : List ReadError) (w w' : Network) : Prop where
  received : w'.journal.received c = w.journal.received c ++ ms
  faults : w'.journal.faults = es ++ w.journal.faults
  written : ∀ d, w'.journal.written d = w.journal.written d
  sides : ∀ i, w'.sides i = w.sides i

namespace Outcome

variable {ms ns : List Message} {es fs : List ReadError}

theorem trans (h : Outcome c ms es u v) (h' : Outcome c ns fs v w) :
    Outcome c (ms ++ ns) (fs ++ es) u w := by
  refine ⟨?_, ?_, fun d => (h'.written d).trans (h.written d),
    fun i => (h'.sides i).trans (h.sides i)⟩
  · rw [h'.received, h.received, List.append_assoc]
  · rw [h'.faults, h.faults, List.append_assoc]

/-- Messages are handed on, and then the loop fails, or nothing else is told. -/
theorem andThen (h : Outcome c ms [] u v) (h' : Outcome c [] es v w) : Outcome c ms es u w := by
  have hall := h.trans h'
  rwa [List.append_nil, List.append_nil] at hall

theorem of_journal (hj : w'.inflow.journal = w.inflow.journal) (hs : ∀ i, w'.sides i = w.sides i) :
    Outcome c [] [] w w' :=
  ⟨by rw [received_of_inflow hj, List.append_nil], faults_of_inflow hj, written_of_inflow hj, hs⟩

theorem refl (w : Network) : Outcome c [] [] w w := of_journal rfl fun _ => rfl

end Outcome

theorem Closes.outcome (h : Closes w w') : Outcome c [] [] w w' := .of_journal h.journal h.sides

/-- All that is there is taken. -/
theorem takeInput_rest (hx : w.conns[c]? = some x) :
    Outcome c [] [] w (w.takeInput c).2.2 ∧
      (w.takeInput c).2.2.conns[c]? = some { x with stream := x.stream.emptied } ∧
      (w.takeInput c).2.2.waiting c = ([], (w.waiting c).2) := by
  -- By the kind of the stream. A script is emptied on the spot.
  cases hs : x.stream with
  | script input output =>
    have he : (w.takeInput c).2.2 = w.modifyConn c fun x =>
        { x with stream := .script { input with bytes := [] } output } := by
      simp only [takeInput, hx, Option.map_some, hs]
    have hy : (w.takeInput c).2.2.conns[c]? =
        some { x with stream := .script { input with bytes := [] } output } := by
      rw [he, getElem?_modifyConn_self, hx]
      rfl
    refine ⟨?_, hy, ?_⟩
    · rw [he]
      exact .of_journal rfl fun _ => rfl
    · rw [waiting_script hy rfl, waiting_script hx hs]
      rfl
  -- A pipe is emptied for both of its ends.
  | pipes i o =>
    have hst : ({ x with stream := (Stream.pipes i o).emptied } : Connection) = x := by
      rw [Stream.emptied, ← hs]
    rw [hst]
    cases hp : w.pipes[i]? with
    | none =>
      have he : (w.takeInput c).2.2 = w := by
        simp only [takeInput, hx, Option.map_some, hs, hp]
      rw [he, waiting_absent hx hs hp]
      exact ⟨.refl w, hx, rfl⟩
    | some p =>
      let v : Network := { w with pipes := w.pipes.modify i fun p => { p with held := [] } }
      have he : (w.takeInput c).2.2 = if p.held.isEmpty then w else v.wakeBusyWriter p.writer := by
        simp only [takeInput, hx, Option.map_some, hs, hp]
        rfl
      by_cases hempty : p.held.isEmpty = true
      · rw [he, if_pos hempty, waiting_pipes hx hs hp, List.isEmpty_iff.mp hempty]
        exact ⟨.refl w, hx, rfl⟩
      · -- Waking the one who writes into the pipe changes nothing about the pipes.
        have hinflow : (w.takeInput c).2.2.inflow = v.inflow := by
          rw [he, if_neg hempty, inflow_wakeBusyWriter]
        have hpipes : (w.takeInput c).2.2.pipes = v.pipes := congrArg Inflow.pipes hinflow
        have hjournal : (w.takeInput c).2.2.inflow.journal = v.inflow.journal :=
          congrArg Inflow.journal hinflow
        have hconns : (w.takeInput c).2.2.conns[c]? = some x := by
          rw [he, if_neg hempty, wakeBusyWriter_eq]
          exact hx
        have hp' : (w.takeInput c).2.2.pipes[i]? = some { p with held := [] } := by
          rw [hpipes, List.getElem?_modify, hp]
          simp
        refine ⟨.of_journal hjournal fun j => ?_, hconns, ?_⟩
        · rw [Network.sides, Network.sides, hpipes, List.getElem?_modify]
          cases w.pipes[j]? with
          | none => rfl
          | some q => by_cases hj : i = j <;> simp [hj]
        · rw [waiting_pipes hconns hs hp', waiting_pipes hx hs hp]

theorem closes_stopReading (w : Network) (c : Nat) :
    Closes (w.modifyConn c fun x => { x with reading := .stopped }) (w.stopReading c) :=
  (closes_emit _ rfl).trans (closes_closeIfFinished _ c)

/-- The loop that reads stops, and the journal does not tell. -/
theorem outcome_stopReading (hx : w.conns[c]? = some x) :
    Outcome c [] [] w (w.stopReading c) ∧
      (w.stopReading c).inflow.conns[c]? = some { x.intaking with reading := .stopped } := by
  have h := closes_stopReading w c
  have hstop : Outcome c [] [] w (w.modifyConn c fun x => { x with reading := .stopped }) :=
    .of_journal rfl fun _ => rfl
  refine ⟨hstop.trans h.outcome, ?_⟩
  rw [h.conns, getElem?_inflow, getElem?_modifyConn_self, hx]
  rfl

/-- The end of the connection begins, and the loop stops. -/
theorem outcome_teardown (hx : w.conns[c]? = some x) (flush : Bool) :
    Outcome c [] [] w ((w.teardown c flush).stopReading c) ∧
      ((w.teardown c flush).stopReading c).inflow.conns[c]? =
        some { x.intaking with reading := .stopped } := by
  have ht := closes_teardown w c flush
  have hc := congrArg (·[c]?) ht.conns
  simp only [getElem?_inflow, hx, Option.map_some] at hc
  obtain ⟨y, hy, hi⟩ := Option.map_eq_some_iff.mp hc
  obtain ⟨ho, hconn⟩ := outcome_stopReading hy
  rw [hi] at hconn
  exact ⟨ht.outcome.trans ho, hconn⟩

theorem outcome_endReading (hx : w.conns[c]? = some x) :
    Outcome c [] [] w (w.endReading c) ∧
      (w.endReading c).inflow.conns[c]? = some { x.intaking with reading := .stopped } :=
  outcome_teardown hx _

theorem outcome_failReading (hx : w.conns[c]? = some x) (e : ReadError) :
    Outcome c [] [e] w (w.failReading c e) ∧
      (w.failReading c e).inflow.conns[c]? = some { x.intaking with reading := .stopped } := by
  have hlog : Outcome c [] [e] w (w.log (.protocolError e)) :=
    ⟨(List.append_nil _).symm, rfl, fun _ => rfl, fun _ => rfl⟩
  obtain ⟨ho, hconn⟩ := outcome_teardown (w := w.log (.protocolError e)) hx false
  exact ⟨hlog.trans ho, hconn⟩

/-- The messages in the bodies of frames are handed on, up to the first body that is no message. -/
theorem outcome_receiveAll (bodies : List (List UInt8)) (hx : w.conns[c]? = some x)
    (hr : x.IsReading) (hd : x.dispatcher.isSome = true) :
    (∀ w', receiveAll c w bodies = .ok w' → Outcome c (messagesIn bodies) [] w w' ∧
      w'.pipes = w.pipes) ∧
    ∀ e w', receiveAll c w bodies = .error (e, w') → Outcome c (messagesIn bodies) [] w w' := by
  induction bodies generalizing w x with
  | nil =>
    constructor
    · intro w' h
      obtain rfl := Except.ok.inj h
      exact ⟨.refl w, rfl⟩
    · intro e w' h
      cases h
  | cons body bodies ih =>
    rw [receiveAll, messagesIn]
    -- A body that is no message ends the reading; whatever came before it has been received.
    cases Message.ofBytes body with
    | error e =>
      constructor
      · intro w' h
        cases h
      · intro e w' h
        obtain ⟨-, rfl⟩ := Prod.mk.inj (Except.error.inj h)
        exact .refl w
    | ok m =>
      -- A message is received, and the connection reads on, whatever its handlers did.
      obtain ⟨d, hd'⟩ := Option.isSome_iff_exists.mp hd
      have hinflow := inflow_receive hx hd' m
      have hpipes : (w.receive c m).pipes = w.pipes := congrArg Inflow.pipes hinflow
      have hm : Outcome c [m] [] w (w.receive c m) := by
        have hjournal := congrArg Inflow.journal hinflow
        refine ⟨?_, ?_, fun d => ?_, fun i => ?_⟩
        · rw [received_of_inflow hjournal]
          exact if_pos rfl
        · have hfaults := faults_of_inflow hjournal
          exact hfaults
        · exact written_of_inflow hjournal d
        · rw [Network.sides, Network.sides, hpipes]
      obtain ⟨l, hl, hr'⟩ := (inside_receive hx hr m).conn hx hr
      obtain ⟨hok, herr⟩ := ih hl hr' hd
      exact ⟨fun w' h => ⟨hm.trans (hok w' h).1, (hok w' h).2.trans hpipes⟩,
        fun e w' h => hm.trans (herr e w' h)⟩

/-- At the end of a stream the loop stops, and fails if the stream ends inside a frame. -/
theorem outcome_closeIntake (limit : Nat) (s : Intake) (hx : w.conns[c]? = some x)
    (hr : x.IsReading) (hd : x.dispatcher.isSome = true) :
    Outcome c [] (verdict limit s [] .ended).fault?.toList w (w.closeIntake c limit s) ∧
      (w.closeIntake c limit s).inflow.conns[c]? =
        some { x.intaking with reading := .stopped } := by
  rw [closeIntake, verdict_nil_ended]
  cases hf : s.finish limit with
  | error e => exact outcome_failReading hx e
  | ok o =>
    cases o with
    | none => exact outcome_endReading hx
    | some body =>
      -- Only an empty body can end here, and that is no message.
      obtain rfl := finish_eq_some hf
      obtain ⟨hok, herr⟩ := outcome_receiveAll [[]] hx hr hd
      obtain ⟨iok, ierr⟩ := inside_receiveAll [[]] hx hr
      obtain ⟨hbad, hgood⟩ := receiveAll_eq c [[]] w
      cases ha : receiveAll c w [[]] with
      | error p =>
        obtain ⟨e, v⟩ := p
        have he : bodyError? [] = some e := by simpa using hbad e v ha
        obtain ⟨l, hl, -⟩ := (ierr e v ha).conn hx hr
        obtain ⟨ho, hconn⟩ := outcome_failReading hl e
        simp only [ha, he, Option.elim_some]
        exact ⟨(herr e v ha).trans ho, hconn⟩
      | ok v =>
        have he : bodyError? [] = none := by simpa using hgood v ha
        obtain ⟨l, hl, -⟩ := (iok v ha).conn hx hr
        obtain ⟨ho, hconn⟩ := outcome_endReading hl
        simp only [ha, he, Option.elim_none]
        exact ⟨(hok v ha).1.trans ho, hconn⟩

/-- **A turn of the loop that reads**: what is there is read, and what is in it is handed on. Then
the loop goes on with what is known of the frame under way, or it has stopped. -/
theorem outcome_readOn (limit : Nat) (s : Intake) (hx : w.conns[c]? = some x) (hr : x.IsReading)
    (hd : x.dispatcher.isSome = true) :
    let q := w.waiting c
    Outcome c (messagesIn (s.feed limit q.1).1) (verdict limit s q.1 q.2).fault?.toList w
        (w.readOn c limit s) ∧
      ∃ r, (w.readOn c limit s).inflow.conns[c]? = some ⟨x.config, r, x.stream.emptied.mute⟩ ∧
        (r = .stopped ∨ ∃ t, r = .running t ∧ verdict limit s q.1 q.2 = .goesOn ∧
          (s.feed limit q.1).2 = .ok t ∧ (w.readOn c limit s).waiting c = ([], .open)) := by
  intro q
  obtain ⟨htake, hx₀, hwait⟩ := takeInput_rest hx
  have hr₀ : ({ x with stream := x.stream.emptied } : Connection).IsReading := hr
  have hq : q = ((w.takeInput c).1, (w.takeInput c).2.1) := rfl
  rcases hf : s.feed limit q.1 with ⟨bodies, rest⟩
  obtain ⟨hok, herr⟩ := outcome_receiveAll bodies hx₀ hr₀ hd
  obtain ⟨iok, ierr⟩ := inside_receiveAll bodies hx₀ hr₀
  obtain ⟨hbad, hgood⟩ := receiveAll_eq c bodies (w.takeInput c).2.2
  have hf' : s.feed limit (w.takeInput c).1 = (bodies, rest) := hf
  simp only [readOn, hf']
  cases ha : receiveAll c (w.takeInput c).2.2 bodies with
  | error p =>
    obtain ⟨e, v⟩ := p
    have hread := htake.trans (herr e v ha)
    obtain ⟨l, hl, -⟩ := (ierr e v ha).conn hx₀ hr₀
    obtain ⟨ho, hconn⟩ := outcome_failReading hl e
    rw [verdict_of_bad hf (hbad e v ha)]
    exact ⟨hread.andThen ho, .stopped, hconn, .inl rfl⟩
  | ok v =>
    have hv := hgood v ha
    obtain ⟨hrec, hpipes⟩ := hok v ha
    obtain ⟨l, hl, hr₁⟩ := (iok v ha).conn hx₀ hr₀
    have hread := htake.trans hrec
    cases rest with
    | error e =>
      obtain ⟨ho, hconn⟩ := outcome_failReading hl e
      rw [verdict_of_error hf hv]
      exact ⟨hread.andThen ho, .stopped, hconn, .inl rfl⟩
    | ok t =>
      -- All bodies were messages, so it depends on what follows the bytes.
      rw [verdict_of_ok hf hv]
      have hq₂ : q.2 = (w.takeInput c).2.1 := rfl
      cases hsequel : (w.takeInput c).2.1 with
      | «open» =>
        rw [hq₂, hsequel]
        let v' := v.modifyConn c fun x => { x with reading := .running t }
        have hgo : Outcome c [] [] v v' := .of_journal rfl fun _ => rfl
        have hy : v'.conns[c]? = some
            { x with stream := x.stream.emptied, link := l, reading := .running t } := by
          rw [getElem?_modifyConn_self, hl]
          rfl
        refine ⟨hread.andThen hgo, .running t, ?_, .inr ⟨t, rfl, rfl, rfl, ?_⟩⟩
        · rw [getElem?_inflow, hy]
          rfl
        · have hcongr : v'.waiting c = (w.takeInput c).2.2.waiting c :=
            waiting_congr hx₀ hy rfl fun i o _ => by rw [← hpipes]; rfl
          rw [hcongr, hwait]
          exact congrArg (([] : List UInt8), ·) hsequel
      | fault text =>
        rw [hq₂, hsequel]
        obtain ⟨ho, hconn⟩ := outcome_failReading hl (.stream text)
        exact ⟨hread.andThen ho, .stopped, hconn, .inl rfl⟩
      | ended =>
        rw [hq₂, hsequel]
        obtain ⟨ho, hconn⟩ := outcome_closeIntake limit t hl hr₁ hd
        exact ⟨hread.andThen ho, .stopped, hconn, .inl rfl⟩

end Network

end Parley

import Parley.Proofs.Binding
import Parley.Proofs.Replies

/-!
# Requests that are cancelled

A peer may cancel a request as long as it is being served. Which run that is the dispatcher knows by
the identifier alone, though the peer of every connection chooses its identifiers for itself. A run
of an earlier connection may go on under the identifier of a later request; when it ends, the
dispatcher forgets the later one, and a cancellation does not reach it any more.

- `Journal.unanswered`: the runs that serve the requests of a connection under an identifier.
- `Journal.isDistinct`: no identifier is used again while its request is unanswered.
- `Journal.isOvertaken`: another run has ended since one began.
- `Network.Aware`: what a dispatcher knows about a run, and what cancellations do; every move keeps
  this.
- `Network.cancels_iff`: which cancellations reach their requests.
-/

namespace Parley

/-! ## Requests and runs in the journal -/

namespace Journal

/-- The runs that began for requests under an identifier that came in over a connection, the latest
first. -/
def begins (c : Nat) (id : Id) : Journal → List Nat
  | [] => []
  | .spawned r d m :: j =>
    if d = c ∧ m.requestId? = some id then r :: begins c id j else begins c id j
  | _ :: j => begins c id j

/-- Those of them that have not ended, so that the peer waits for their answers. -/
def unanswered (c : Nat) (id : Id) (j : Journal) : List Nat :=
  (j.begins c id).filter fun r => (j.endings r).isEmpty

/-- Whether no request came in over a connection under the identifier of one that was unanswered. -/
def isDistinct (c : Nat) : Journal → Bool
  | [] => true
  | .received d m :: j =>
    (d != c || m.requestId?.all fun id => (unanswered c id j).isEmpty) && isDistinct c j
  | _ :: j => isDistinct c j

/-- Whether, since a run began, another one of some runs has ended. -/
def isOvertaken (p : Nat → Bool) (r : Nat) : Journal → Bool
  | [] => false
  | .spawned n _ _ :: j => n != r && isOvertaken p r j
  | .finished n _ _ _ :: j => (n != r && p n) || isOvertaken p r j
  | _ :: j => isOvertaken p r j

variable {c r : Nat} {id : Id} {es j : Journal} {p q : Nat → Bool}

theorem mem_begins : r ∈ j.begins c id ↔ ∃ m, (c, m) ∈ j.spawns r ∧ m.requestId? = some id := by
  induction j with
  | nil => simp [begins, spawns]
  | cons e j ih =>
    cases e with
    | spawned n d m =>
      -- The run is among those that begin if its own message was a request of this id, or if it was
      -- among them before.
      rw [begins, spawns]
      by_cases hd : d = c ∧ m.requestId? = some id
      · rw [if_pos hd, List.mem_cons, ih]
        by_cases hn : n = r
        · subst hn
          exact ⟨fun _ => ⟨m, by simp [hd.1], hd.2⟩, fun _ => .inl rfl⟩
        · rw [if_neg hn]
          exact ⟨fun h => h.resolve_left (Ne.symm hn), .inr⟩
      · rw [if_neg hd, ih]
        by_cases hn : n = r
        · rw [if_pos hn]
          constructor
          · rintro ⟨m', hm, hi⟩
            exact ⟨m', List.mem_append_left _ hm, hi⟩
          · rintro ⟨m', hm, hi⟩
            refine ⟨m', (List.mem_append.mp hm).resolve_right fun h => hd ?_, hi⟩
            obtain ⟨rfl, rfl⟩ := Prod.mk.inj (List.mem_singleton.mp h)
            exact ⟨rfl, hi⟩
        · rw [if_neg hn]
    | _ => exact ih

/-- What was distinct with all that is new was distinct before. -/
theorem isDistinct_of_append (h : isDistinct c (es ++ j) = true) : j.isDistinct c = true := by
  induction es with
  | nil => exact h
  | cons e es ih =>
    refine ih ?_
    cases e with
    | received d m =>
      rw [List.cons_append, isDistinct, Bool.and_eq_true] at h
      exact h.2
    | _ => exact h

theorem isOvertaken_of_not_serves {e : Event} (h : e.serves = false) (j : Journal) :
    isOvertaken p r (e :: j) = j.isOvertaken p r := by
  cases e <;> first | rfl | cases h

/-- Only which of the runs belong that have ended matters. -/
theorem isOvertaken_congr (h : ∀ n, j.endings n ≠ [] → p n = q n) :
    j.isOvertaken p r = j.isOvertaken q r := by
  induction j with
  | nil => rfl
  | cons e j ih =>
    cases e with
    | finished n d i o =>
      have hn : p n = q n := h n (by simp [endings])
      rw [isOvertaken, isOvertaken, hn, ih fun m hm => h m ?_]
      rw [endings]
      split
      · simp
      · exact hm
    | spawned n d m =>
      rw [isOvertaken, isOvertaken, ih fun m hm => h m hm]
    | _ => exact ih fun m hm => h m hm

theorem isOvertaken_mono (h : ∀ n, p n = true → q n = true) (hp : j.isOvertaken p r = true) :
    j.isOvertaken q r = true := by
  induction j with
  | nil => exact hp
  | cons e j ih =>
    cases e with
    | finished n d i o =>
      simp only [isOvertaken, Bool.or_eq_true, Bool.and_eq_true] at hp ⊢
      exact hp.imp (And.imp_right (h n)) ih
    | spawned n d m =>
      simp only [isOvertaken, Bool.and_eq_true] at hp ⊢
      exact ⟨hp.1, ih hp.2⟩
    | _ => exact ih hp

end Journal

namespace Network

variable {w w' : Network}

/-! ## What stays with a run -/

/-- Whether a run serves a request for a dispatcher, under an identifier. -/
def isUnder (w : Network) (d : Nat) (id : Id) (r : Nat) : Bool :=
  (w.runs[r]?).any fun y => y.dispatcher = d && y.id = some id

/-- A request is unanswered as long as its run goes on. -/
theorem Served.mem_unanswered (h : w.Served) {r c : Nat} {id : Id} :
    r ∈ w.journal.unanswered c id ↔
      ∃ y, w.runs[r]? = some y ∧ y.conn = c ∧ y.id = some id ∧ y.outcome? = none := by
  rw [Journal.unanswered, List.mem_filter, Journal.mem_begins, h.begun r, h.ended r]
  cases hy : w.runs[r]? with
  | none => simp
  | some y =>
    have hid : y.message.requestId? = y.id := by
      rw [Run.message]
      cases y.id <;> rfl
    have he : (y.ending?.toList.isEmpty = true) ↔ y.outcome? = none := by
      rw [Run.ending?]
      cases y.outcome? <;> simp
    simp [hid, he, and_assoc, eq_comm (a := c)]

/-- A run that is there stays what it serves. -/
theorem Duty.run (h : Duty w w') {r : Nat} {y : Run} (hy : w.runs[r]? = some y) :
    ∃ y', w'.runs[r]? = some y' ∧ y'.origin = y.origin := by
  have same : w'.runs.map Run.status = w.runs.map Run.status →
      ∃ y', w'.runs[r]? = some y' ∧ y'.origin = y.origin := fun hr => by
    have hm := Duty.getElem?_status hr Prod.fst r
    rw [hy, Option.map_some] at hm
    obtain ⟨y', hy', he⟩ := Option.map_eq_some_iff.mp hm
    exact ⟨y', hy', he⟩
  cases h with
  | quiet es hr => exact same hr
  | heed hx hread hb hr => exact same (hr ▸ map_status_runsAfter w _)
  | spawn hi hs hr => exact ⟨y, by rw [hr]; exact getElem?_append_of_some hy _, rfl⟩
  | serve hi hs hr => exact ⟨y, by rw [hr]; exact getElem?_append_of_some hy _, rfl⟩
  | refuse c id method params hr => exact ⟨y, by rwa [hr], rfl⟩
  | @finish n z outcome hz hs hr =>
    rw [hr, List.getElem?_modify, hy]
    by_cases hn : n = r
    · exact ⟨{ y with stage := .finished outcome }, by simp [hn], rfl⟩
    · exact ⟨y, by simp [hn], rfl⟩

/-- Where no status has changed, every run was there before. -/
theorem run_of_status (hr : w'.runs.map Run.status = w.runs.map Run.status) {r : Nat} {y' : Run}
    (hy : w'.runs[r]? = some y') : ∃ y, w.runs[r]? = some y ∧ y'.origin = y.origin ∧
      (y'.outcome? = none → y.outcome? = none) := by
  have hm := Duty.getElem?_status hr id r
  rw [hy, Option.map_some, id] at hm
  obtain ⟨y, hy, he⟩ := Option.map_eq_some_iff.mp hm.symm
  obtain ⟨ho, hf⟩ := Prod.mk.inj he
  exact ⟨y, hy, ho.symm, fun hn => hf.trans hn⟩

/-- A run was there before, and has not ended since it had; or it is new, and if it serves a request
then for the dispatcher of a connection that is read from. -/
theorem Duty.run_cases (h : Duty w w') {r : Nat} {y' : Run} (hy : w'.runs[r]? = some y') :
    (∃ y, w.runs[r]? = some y ∧ y'.origin = y.origin ∧ (y'.outcome? = none → y.outcome? = none)) ∨
      (y'.id = none ∨ ∃ x, w.conns[y'.conn]? = some x ∧ x.IsReading ∧
        x.dispatcher = some y'.dispatcher) := by
  -- The runs of before keep origin and outcome; a new one has just been taken up over a connection
  -- that reads.
  cases h with
  | quiet es hr => exact .inl (run_of_status hr hy)
  | heed hx hread hb hr => exact .inl (run_of_status (hr ▸ map_status_runsAfter w _) hy)
  | spawn hi hs hr =>
    rw [hr] at hy
    rcases getElem?_append_one hy with hy | ⟨-, rfl⟩
    · exact .inl ⟨y', hy, rfl, id⟩
    · exact .inr (.inl hi)
  | serve hi hs hr hj hx hread hb =>
    rw [hr] at hy
    rcases getElem?_append_one hy with hy | ⟨-, rfl⟩
    · exact .inl ⟨y', hy, rfl, id⟩
    · exact .inr (.inr ⟨_, hx, hread, hb⟩)
  | refuse c id method params hr =>
    rw [hr] at hy
    exact .inl ⟨y', hy, rfl, fun h => h⟩
  -- The run that finishes has an outcome from now on, so there is nothing to say of it afterwards.
  | @finish n z outcome hz hs hr =>
    rw [hr] at hy
    obtain ⟨v, hv, rfl⟩ := getElem?_modify_eq_some hy
    refine .inl ⟨v, hv, ?_, ?_⟩
    · split <;> rfl
    · split
      · rintro ⟨⟩
      · exact id

/-- A run that was cancelled stays cancelled. -/
theorem Move.cancelled (h : Move w w') {r : Nat} {y : Run} (hy : w.runs[r]? = some y)
    (hc : y.cancelled = true) : ∃ y', w'.runs[r]? = some y' ∧ y'.cancelled = true := by
  -- Wherever a run changes, its flag is set or left.
  have modify : ∀ {n : Nat} {f : Run → Run}, (∀ z, z.cancelled = true → (f z).cancelled = true) →
      ∃ y', (w.runs.modify n f)[r]? = some y' ∧ y'.cancelled = true := by
    intro n f hf
    rw [List.getElem?_modify, hy]
    by_cases hn : n = r
    · exact ⟨f y, by simp [hn], hf y hc⟩
    · exact ⟨y, by simp [hn], hc⟩
  cases h with
  | forward => exact modify fun _ h => h
  | spawn => exact ⟨y, getElem?_append_of_some hy _, hc⟩
  | serve => exact ⟨y, getElem?_append_of_some hy _, hc⟩
  | wait => exact modify fun _ h => h
  -- A cancellation sets the flag of the run that it names.
  | @receive c d x m =>
    show ∃ y', (w.runsAfter (w.cancels d m))[r]? = some y' ∧ _
    cases w.cancels d m with
    | none => exact ⟨y, hy, hc⟩
    | some n => exact modify fun _ _ => rfl
  | finish =>
    obtain ⟨-, -, -, hr⟩ := concluded_rest w _ _ _
    rw [hr]
    exact modify fun _ h => h
  | _ => exact ⟨y, hy, hc⟩

/-- The link of a connection that was connected is not opened again. -/
theorem Move.stays (h : Move w w') (hS : w.Each Connection.Sound) {c : Nat} (hl : w.HasLink c)
    {y : Connection} (hy : w'.conns[c]? = some y) (ho : y.isOpen = true) :
    ∃ x, w.conns[c]? = some x ∧ x.Stays y := by
  rcases h.unmoved with hm | ⟨b, d, z, hz, hp, -, -, rfl⟩
  · exact hm.conn c y hy ho
  · obtain ⟨x, l, hx, hl⟩ := hl
    obtain ⟨x', hx', rfl⟩ := getElem?_modify_eq_some hy
    obtain rfl := Option.some.inj (hx.symm.trans hx')
    refine ⟨x, hx, ?_⟩
    rw [if_neg]
    · exact .refl x
    · rintro rfl
      obtain rfl := Option.some.inj (hx.symm.trans hz)
      have hu := (hS.conn _ x hx).unused_of_disconnected hp
      cases hl.symm.trans hu.link

/-! ## What a dispatcher knows -/

/-- Runs for requests over open connections serve for the dispatchers of these. -/
def Placed (w : Network) : Prop :=
  ∀ (r : Nat) (y : Run) (x : Connection), w.runs[r]? = some y → y.id.isSome = true →
    w.conns[y.conn]? = some x → x.isOpen = true → x.dispatcher = some y.dispatcher

/-- A dispatcher knows the run of an unanswered request under its identifier, until another run for
a request with this identifier ends. -/
def Knows (w : Network) : Prop :=
  ∀ (r : Nat) (y : Run) (id : Id) (x : Connection), w.runs[r]? = some y → y.id = some id →
    y.outcome? = none → w.conns[y.conn]? = some x → x.isOpen = true →
    w.journal.isDistinct y.conn = true →
    w.held y.dispatcher id =
      if w.journal.isOvertaken (w.isUnder y.dispatcher id) r then none else some r

/-- A cancellation that came in has cancelled the run of an unanswered request, unless the run was
overtaken. -/
def Heeded (w : Network) : Prop :=
  ∀ (es j : Journal) (c : Nat) (params : Json) (id : Id) (r : Nat),
    w.journal = es ++ .received c (.notification cancelMethod params) :: j →
    Id.ofJson? (params.index "id") = some id → r ∈ j.unanswered c id → j.isDistinct c = true →
    ∃ y, w.runs[r]? = some y ∧
      (y.cancelled = true ∨ j.isOvertaken (w.isUnder y.dispatcher id) r = true)

/-- What is kept about dispatchers, runs and cancellations. -/
structure Aware (w : Network) : Prop where
  ordered : w.Ordered
  bound : w.Bound
  placed : w.Placed
  knows : w.Knows
  heeded : w.Heeded

/-- What is needed of a step so that it keeps all of this. -/
structure Step (w w' : Network) : Prop where
  duty : Duty w w'
  stays : ∀ (c : Nat) (y : Connection), w.HasLink c → w'.conns[c]? = some y → y.isOpen = true →
    ∃ x, w.conns[c]? = some x ∧ x.Stays y
  cancelled : ∀ (r : Nat) (y : Run), w.runs[r]? = some y → y.cancelled = true →
    ∃ y', w'.runs[r]? = some y' ∧ y'.cancelled = true

namespace Aware

/-- A connection that is read from is open. -/
theorem open_of_isReading (h : w.Aware) {c : Nat} {x : Connection} (hx : w.conns[c]? = some x)
    (hr : x.IsReading) : x.isOpen = true ∧ w.HasLink c := by
  obtain ⟨l, hl⟩ := (h.ordered.sound.conn c x hx).live_of_isReading hr
  exact ⟨by rw [Connection.isOpen_of_link hl.link, hl.isOpen], x, l, hx, hl.link⟩

/-- The runs that serve under an identifier stay the same. -/
theorem isUnder_eq (h : w.Aware) (hd : Duty w w') (d : Nat) (id : Id) (r : Nat) :
    w.journal.isOvertaken (w'.isUnder d id) r = w.journal.isOvertaken (w.isUnder d id) r := by
  refine Journal.isOvertaken_congr fun n hn => ?_
  rw [h.ordered.served.ended n] at hn
  cases hy : w.runs[n]? with
  | none => simp [hy] at hn
  | some y =>
    obtain ⟨y', hy', ho⟩ := hd.run hy
    have hd : y'.dispatcher = y.dispatcher := congrArg (·.dispatcher) ho
    have hi : y'.id = y.id := congrArg (·.id) ho
    simp [isUnder, hy, hy', hd, hi]

theorem placed_step (h : w.Aware) (hs : Step w w') : w'.Placed := by
  intro r y' x' hy' hi hx' ho
  rcases hs.duty.run_cases hy' with ⟨y, hy, horig, -⟩ | hn | ⟨x, hx, hr, hd⟩
  · have hc : y'.conn = y.conn := congrArg (·.conn) horig
    have hd : y'.dispatcher = y.dispatcher := congrArg (·.dispatcher) horig
    have hi' : y'.id = y.id := congrArg (·.id) horig
    rw [hc] at hx'
    have hl := h.ordered.linked y (List.mem_of_getElem? hy)
    obtain ⟨x, hx, hst⟩ := hs.stays _ x' hl hx' ho
    rw [hst.dispatcher, hd]
    exact h.placed r y x hy (by rwa [← hi']) hx (hst.isOpen ho)
  · simp [hn] at hi
  · obtain ⟨-, hl⟩ := h.open_of_isReading hx hr
    obtain ⟨x₁, hx₁, hst⟩ := hs.stays _ x' hl hx' ho
    obtain rfl := Option.some.inj (hx.symm.trans hx₁)
    rw [hst.dispatcher, hd]

/-- A run that went on before a step, seen from after it. -/
theorem knows_before (h : w.Aware) (hs : Step w w') {es : List Event} {r : Nat} {y y' : Run}
    {id : Id} {x' : Connection} (hy : w.runs[r]? = some y) (ho : y'.origin = y.origin)
    (hn : y.outcome? = none) (hi : y'.id = some id) (hx : w'.conns[y'.conn]? = some x')
    (hopen : x'.isOpen = true) (hj : w'.journal = es ++ w.journal)
    (hd : w'.journal.isDistinct y'.conn = true) :
    w.held y'.dispatcher id =
      if w.journal.isOvertaken (w'.isUnder y'.dispatcher id) r then none else some r := by
  have hc : y'.conn = y.conn := congrArg (·.conn) ho
  have hdisp : y'.dispatcher = y.dispatcher := congrArg (·.dispatcher) ho
  have hid : y'.id = y.id := congrArg (·.id) ho
  have hl := h.ordered.linked y (List.mem_of_getElem? hy)
  rw [hc] at hx hd
  rw [hj] at hd
  obtain ⟨x, hx, hst⟩ := hs.stays _ x' hl hx hopen
  rw [hdisp, h.isUnder_eq hs.duty]
  exact h.knows r y id x hy (hid ▸ hi) hn hx (hst.isOpen hopen) (Journal.isDistinct_of_append hd)

/-- No run goes on under the identifier of a request that comes in over a connection to the same
dispatcher. -/
theorem not_under (h : w.Aware) {y z : Run} {c r : Nat} {m : Message} {id : Id} {x x' : Connection}
    (hy : w.runs[r]? = some y) (hi : y.id = some id) (hn : y.outcome? = none)
    (hx : w.conns[y.conn]? = some x) (ho : x.isOpen = true) (hx' : w.conns[c]? = some x')
    (hread : x'.IsReading) (hb : x'.dispatcher = some z.dispatcher) (hm : m.requestId? = some id)
    (hdist : Journal.isDistinct y.conn (.received c m :: w.journal) = true) :
    y.dispatcher ≠ z.dispatcher := by
  intro he
  have hd := h.placed r y x hy (by rw [hi]; rfl) hx ho
  obtain ⟨d, u, hd₁, hu, hb₁⟩ := h.bound y.conn x hx ho
  obtain ⟨d', u', hd₂, hu', hb₂⟩ := h.bound c x' hx' (h.open_of_isReading hx' hread).1
  obtain rfl := Option.some.inj (hd.symm.trans hd₁)
  obtain rfl := Option.some.inj (hb.symm.trans hd₂)
  -- Their dispatcher is bound to one connection only, so both requests came in over the same one.
  rw [← he] at hu'
  obtain rfl := Option.some.inj (hu.symm.trans hu')
  obtain rfl := Option.some.inj (hb₁.symm.trans hb₂)
  have hmem := h.ordered.served.mem_unanswered.mpr ⟨y, hy, rfl, hi, hn⟩
  simp only [Journal.isDistinct, bne_self_eq_false, Bool.false_or, hm, Option.all_some,
    Bool.and_eq_true, List.isEmpty_iff] at hdist
  rw [hdist.1] at hmem
  exact absurd hmem List.not_mem_nil

theorem knows_step (h : w.Aware) (hs : Step w w') : w'.Knows := by
  intro r y' id x' hy' hi hn hx' hopen hdist
  have before := fun {e : List Event} {y : Run} (hy : w.runs[r]? = some y)
      (ho : y'.origin = y.origin) (hout : y.outcome? = none) (hj : w'.journal = e ++ w.journal) =>
    h.knows_before hs hy ho hout hi hx' hopen hj hdist
  have hd := hs.duty
  cases hd with
  | quiet es hr hj he hheld =>
    obtain ⟨y, hy, ho, hout⟩ := run_of_status hr hy'
    rw [hheld, before hy ho (hout hn) hj, hj, Journal.eq_of_not_serves
      (f := Journal.isOvertaken _ r) Journal.isOvertaken_of_not_serves he]
  | @heed c d x params hx hread hb hr hj hheld =>
    obtain ⟨y, hy, ho, hout⟩ := run_of_status (hr ▸ map_status_runsAfter w _) hy'
    rw [hheld, before (e := [.received c _]) hy ho (hout hn) hj, hj]
    rfl
  | @spawn z hz hfresh hr hj hheld =>
    rw [hr] at hy'
    rcases getElem?_append_one hy' with hy | ⟨-, rfl⟩
    · have hne : w.runs.length ≠ r := by
        have := (List.getElem?_eq_some_iff.mp hy).1
        omega
      rw [hheld, before (e := [.spawned _ _ _]) hy rfl hn hj, hj]
      simp [Journal.isOvertaken, hne]
    · simp [hz] at hi
  | @serve x z id' hz hfresh hr hj hx hread hb hheld =>
    rw [hr] at hy'
    rw [hheld]
    rcases getElem?_append_one hy' with hy | ⟨rfl, rfl⟩
    · have hne : w.runs.length ≠ r := by
        have := (List.getElem?_eq_some_iff.mp hy).1
        omega
      rw [if_neg, before (e := [.spawned _ _ _, .received _ _]) hy rfl hn hj, hj]
      · simp [Journal.isOvertaken, hne]
      · -- A new request under the identifier would have come in over the connection of the run,
        -- whose peer does not use it twice.
        rintro ⟨hdisp, rfl⟩
        obtain ⟨x, hx₁, hst⟩ :=
          hs.stays _ x' (h.ordered.linked y' (List.mem_of_getElem? hy)) hx' hopen
        rw [hj] at hdist
        refine h.not_under hy hi hn hx₁ (hst.isOpen hopen) hx hread hb (m := z.message) ?_ hdist
          hdisp
        rw [Run.message_of_some hz]
        rfl
    · obtain rfl := Option.some.inj (hi.symm.trans hz)
      rw [if_pos ⟨rfl, rfl⟩, hj]
      simp [Journal.isOvertaken]
  | refuse c id' method params hr hj hheld =>
    rw [hr] at hy'
    rw [hheld, before (e := [.accepted _ _, .unserved _ _ _ _, .received _ _]) hy' rfl hn hj, hj]
    rfl
  | @finish n z outcome hz hout hr hj hheld =>
    rw [hr] at hy'
    obtain ⟨y, hy, rfl⟩ := getElem?_modify_eq_some hy'
    have hne : n ≠ r := by
      rintro rfl
      simp [Run.outcome?] at hn
    rw [if_neg hne] at hi hx' hdist hn before ⊢
    -- The run that ends overtakes this one if the dispatcher served it under the same identifier.
    have hover : ∀ p, w'.journal.isOvertaken p r = (p n || w.journal.isOvertaken p r) := fun p => by
      rw [hj, following_aside (f := Journal.isOvertaken p r) fun _ _ _ => rfl, Journal.isOvertaken,
        bne_iff_ne.mpr hne, Bool.true_and]
    obtain ⟨z', hz', horig⟩ := hs.duty.run hz
    have hdz : z'.dispatcher = z.dispatcher := congrArg (·.dispatcher) horig
    have hiz : z'.id = z.id := congrArg (·.id) horig
    have hunder : w'.isUnder y.dispatcher id n =
        (decide (z.dispatcher = y.dispatcher) && decide (z.id = some id)) := by
      rw [isUnder, hz', Option.any_some, hdz, hiz]
    rw [hheld, hover, hunder,
      before (e := w.following z outcome ++ [Event.finished n z.conn z.id outcome])
      hy rfl hn (by rw [hj, List.append_assoc]; rfl)]
    by_cases hu : y.dispatcher = z.dispatcher ∧ z.id = some id
    · rw [if_pos hu]
      simp [hu.1, hu.2]
    · rw [if_neg hu]
      have hf : (decide (z.dispatcher = y.dispatcher) && decide (z.id = some id)) = false := by
        rw [Bool.eq_false_iff, ne_eq, Bool.and_eq_true, decide_eq_true_eq, decide_eq_true_eq]
        exact fun h => hu ⟨h.1.symm, h.2⟩
      rw [hf, Bool.false_or]

/-- What is new holds no cancellation, or it is one, and what it names is cancelled. -/
theorem exists_new (hd : Duty w w') : (∃ es, w'.journal = es ++ w.journal ∧
      ∀ c params, .received c (.notification cancelMethod params) ∉ es) ∨
    ∃ c d x params, w.conns[c]? = some x ∧ x.IsReading ∧ x.dispatcher = some d ∧
      w'.runs = w.runsAfter (w.named d params) ∧
      w'.journal = .received c (.notification cancelMethod params) :: w.journal := by
  -- Only the move that heeds a message can have received a cancellation: all others write down
  -- something else.
  cases hd with
  | quiet es hr hj he =>
    refine .inl ⟨es, hj, fun c params hm => ?_⟩
    have hf := he _ hm
    simp [Event.serves, Message.isCancel] at hf
  | heed hx hread hb hr hj => exact .inr ⟨_, _, _, _, hx, hread, hb, hr, hj⟩
  | spawn hi hs hr hj => exact .inl ⟨[_], hj, by simp⟩
  | @serve x y id hi hs hr hj =>
    refine .inl ⟨[_, _], hj, fun c params hm => ?_⟩
    rw [Run.message_of_some hi] at hm
    simp at hm
  | refuse c id method params hr hj => exact .inl ⟨[_, _, _], hj, by simp⟩
  -- What follows the end of a run is a reply at most.
  | @finish r y outcome hy hs hr hj =>
    refine .inl ⟨w.following y outcome ++ [Event.finished r y.conn y.id outcome], ?_,
      fun c params hm => ?_⟩
    · rw [hj, List.append_assoc]
      rfl
    · rcases List.mem_append.mp hm with hm | hm
      · rw [following] at hm
        cases hi : y.id with
        | none => simp [hi] at hm
        | some id =>
          rw [hi, Option.elim_some] at hm
          split at hm
          · simp at hm
          · exact absurd hm List.not_mem_nil
      · simp at hm

/-- A cancellation came in before what is new, or it is new. -/
theorem heeded_step (h : w.Aware) (hs : Step w w') : w'.Heeded := by
  intro es j c params id r hj hi hr hdist
  -- What was said of a run before is still true.
  have later : (∃ y, w.runs[r]? = some y ∧
      (y.cancelled = true ∨ j.isOvertaken (w.isUnder y.dispatcher id) r = true)) →
      ∃ y, w'.runs[r]? = some y ∧
        (y.cancelled = true ∨ j.isOvertaken (w'.isUnder y.dispatcher id) r = true) := by
    rintro ⟨y, hy, hc⟩
    obtain ⟨y', hy', ho⟩ := hs.duty.run hy
    have hd : y'.dispatcher = y.dispatcher := congrArg (·.dispatcher) ho
    refine ⟨y', hy', ?_⟩
    rcases hc with hc | hc
    · obtain ⟨y₁, hy₁, hc₁⟩ := hs.cancelled r y hy hc
      obtain rfl := Option.some.inj (hy'.symm.trans hy₁)
      exact .inl hc₁
    · refine .inr (Journal.isOvertaken_mono (fun n hn => ?_) hc)
      obtain ⟨z, hz, hp⟩ := (Option.any_eq_true _ _).mp hn
      obtain ⟨z', hz', ho⟩ := hs.duty.run hz
      have hdz : z'.dispatcher = z.dispatcher := congrArg (·.dispatcher) ho
      have hiz : z'.id = z.id := congrArg (·.id) ho
      rw [isUnder, hz', Option.any_some, hdz, hiz, hd]
      exact hp
  rcases exists_new hs.duty with ⟨new, hnew, hno⟩ | ⟨b, d, x, params', hx, hread, hb, hruns, hnew⟩
  · rw [hnew] at hj
    rcases List.append_eq_append_iff.mp hj with ⟨es', rfl, he⟩ | ⟨es', rfl, he⟩
    · exact later (h.heeded es' j c params id r he hi hr hdist)
    · cases es' with
      | nil => exact later (h.heeded [] j c params id r he.symm hi hr hdist)
      | cons e es' =>
        obtain ⟨rfl, -⟩ := List.cons.inj he
        exact absurd (List.mem_append_right _ List.mem_cons_self) (hno c params)
  · rw [hnew] at hj
    cases es with
    | nil =>
      obtain ⟨he, rfl⟩ := List.cons.inj hj
      obtain ⟨rfl, hm⟩ := Event.received.inj he
      obtain ⟨-, rfl⟩ := Message.notification.inj hm
      obtain ⟨y, hy, rfl, hid, hn⟩ := h.ordered.served.mem_unanswered.mp hr
      obtain ⟨ho, -⟩ := h.open_of_isReading hx hread
      have hk := h.knows r y id x hy hid hn hx ho hdist
      have hp := h.placed r y x hy (by rw [hid]; rfl) hx ho
      cases hover : w.journal.isOvertaken (w.isUnder y.dispatcher id) r with
      | true => exact later ⟨y, hy, .inr hover⟩
      | false =>
        obtain rfl := Option.some.inj (hb.symm.trans hp)
        rw [hover, if_neg (by rintro ⟨⟩)] at hk
        have hnamed : w.named y.dispatcher params' = some r := by
          rw [named, hi, Option.bind_some, hk]
        refine ⟨{ y with cancelled := true }, ?_, .inl rfl⟩
        rw [hruns, hnamed, runsAfter, Option.elim_some, List.getElem?_modify, hy]
        simp
    | cons e es =>
      obtain ⟨-, he⟩ := List.cons.inj hj
      exact later (h.heeded es j c params id r he hi hr hdist)

theorem step (h : w.Aware) (ho : w'.Ordered) (hb : w'.Bound) (hs : Step w w') : w'.Aware :=
  ⟨ho, hb, h.placed_step hs, h.knows_step hs, h.heeded_step hs⟩

end Aware

/-! ## Every run -/

theorem Move.step (hm : Move w w') (ho : w.Ordered) : Step w w' :=
  ⟨hm.duty ho.sound ho.linked, fun _ _ hl hy => hm.stays ho.sound hl hy,
    fun _ _ hy hc => hm.cancelled hy hc⟩

theorem Step.pop (w : Network) (q : List Task) : Step w { w with ready := q } :=
  ⟨.quiet [] rfl rfl (by simp) rfl, fun _ y _ hy _ => ⟨y, hy, .refl y⟩,
    fun _ y hy hc => ⟨y, hy, hc⟩⟩

theorem Step.givenUp (w : Network) (k : Nat) (x : Call) : Step w (w.givenUp k x) :=
  ⟨.givenUp w k x, fun c y _ hy ho => (Unmoved.givenUp w k x).conn c y hy ho,
    fun _ y hy hc => ⟨y, hy, hc⟩⟩

/-- It is kept along every path. -/
theorem Path.aware (h : Path {} w) : w.Aware := by
  refine h.keeps (fun hv hm => ?_) (fun {v} q hv => ?_) (fun hv _ _ _ => ?_) ?_
  · exact hv.step (hv.ordered.move hm) (hv.bound.move hm) (hm.step hv.ordered)
  · exact hv.step (hv.ordered.pop q) (hv.bound.unmoved (.same rfl rfl)) (.pop v q)
  · exact hv.step (hv.ordered.givenUp _ _) (hv.bound.unmoved (.givenUp _ _ _)) (.givenUp _ _ _)
  · refine ⟨.start, ?_, ?_, ?_, ?_⟩
    · exact fun _ _ hx => by cases hx
    · exact fun _ _ _ hy => by cases hy
    · exact fun _ _ _ _ hy => by cases hy
    · exact fun es j _ _ _ _ hj => by simp at hj

section cancel

variable {c d r : Nat} {x : Connection} {params : Json} {id : Id}

theorem runs_cancelRun (w : Network) (r : Nat) :
    (w.cancelRun r).runs = w.runs.modify r fun y => { y with cancelled := true } := by
  rw [cancelRun]
  split
  · rw [wake_eq]
    rfl
  · rfl

/-- What a cancellation does that comes in. -/
theorem runs_receive_cancel (hx : w.conns[c]? = some x) (hd : x.dispatcher = some d)
    (hi : Id.ofJson? (params.index "id") = some id) :
    (w.receive c (.notification cancelMethod params)).runs =
      (w.held d id).elim w.runs fun r => w.runs.modify r fun y => { y with cancelled := true } := by
  have hheld : ((w.emit (.received c (.notification cancelMethod params))).dispatchers[d]?).bind
      (fun x => x.inflight.lookup id) = w.held d id := rfl
  rw [receive, hx, Option.bind_some, hd]
  simp only [route, receiveNotification, if_true, receiveCancel, hi, hheld]
  cases w.held d id with
  | none => rfl
  | some r => exact runs_cancelRun _ r

end cancel

/-- **Which cancellations reach their requests.** A request is unanswered while its run goes on, and
its peer does not use its identifier again. A cancellation that came in for it has cancelled the
run, for good, unless another run that served a request with the same identifier for the same
dispatcher, of an earlier connection, had ended since the run began. In that case, and only then, a
cancellation does nothing. -/
theorem cancels_iff (h : Reachable w) :
    (∀ (es j : Journal) (c : Nat) (params : Json) (id : Id) (r : Nat),
      w.journal = es ++ .received c (.notification cancelMethod params) :: j →
      Id.ofJson? (params.index "id") = some id → r ∈ j.unanswered c id → j.isDistinct c = true →
      ∃ y, w.runs[r]? = some y ∧
        (j.isOvertaken (w.isUnder y.dispatcher id) r = false → w.isCancelled y = true)) ∧
    ∀ (v : Network) (c : Nat) (x : Connection) (params : Json) (id : Id) (r : Nat) (y : Run),
      Path w v → v.conns[c]? = some x → x.isOpen = true →
      Id.ofJson? (params.index "id") = some id → v.runs[r]? = some y →
      r ∈ v.journal.unanswered c id → v.journal.isDistinct c = true →
      (v.receive c (.notification cancelMethod params)).runs =
        if v.journal.isOvertaken (v.isUnder y.dispatcher id) r then v.runs
        else v.runs.modify r fun y => { y with cancelled := true } := by
  constructor
  · -- A cancellation that was received in the past.
    intro es j c params id r hj hi hr hdist
    obtain ⟨y, hy, hc⟩ := h.path.aware.heeded es j c params id r hj hi hr hdist
    refine ⟨y, hy, fun hn => ?_⟩
    have hc := hc.resolve_right (by rw [hn]; rintro ⟨⟩)
    rw [isCancelled, hc, Bool.true_or]
  · -- A cancellation that comes now, over a connection that is open.
    intro v c x params id r y hv hx ho hi hy hr hdist
    have ha := (h.path.trans hv).aware
    obtain ⟨z, hz, rfl, hid, hn⟩ := ha.ordered.served.mem_unanswered.mp hr
    obtain rfl := Option.some.inj (hy.symm.trans hz)
    have hd := ha.placed r y x hy (by rw [hid]; rfl) hx ho
    rw [runs_receive_cancel hx hd hi, ha.knows r y id x hy hid hn hx ho hdist]
    split <;> rfl

/-- A request of a second connection, while a run of the first one goes on under its identifier. -/
theorem cancels_iff_rebound :
    let gate : Handler :=
      { kind := .request, payload := .any, label := "g", outcome := .awaitGate "x" }
    let hang : Handler := { kind := .request, payload := .any, label := "h", outcome := .hang false }
    let params : Json := .ofMembers [("id", Id.toJson (.number 1))]
    let w := run {} [.openScript {}, .openScript {}, .openDispatcher, .handle 0 "g" gate,
      .handle 0 "h" hang, .connect 0 0,
      .feed 0 (Message.request (.number 1) "g" .null).frame false, .settle 9, .disconnect 0 false,
      .settle 9, .connect 1 0, .feed 1 (Message.request (.number 1) "h" .null).frame false,
      .settle 9]
    (w.receive 1 (.notification cancelMethod params)).runs =
      w.runs.modify 1 fun y => { y with cancelled := true } := by
  intro gate hang params w
  -- The second connection has taken over the dispatcher after the first was closed, and both
  -- requests have the id `1`.
  obtain ⟨hx, hy, hi, hr, hdist, hn⟩ : (w.conns[1]?).any Connection.isOpen = true ∧
      (w.runs[1]?).any (fun y => y.dispatcher = 0) = true ∧
      Id.ofJson? (params.index "id") = some (.number 1) ∧
      1 ∈ w.journal.unanswered 1 (.number 1) ∧ w.journal.isDistinct 1 = true ∧
      w.journal.isOvertaken (w.isUnder 0 (.number 1)) 1 = false := by decide +kernel
  obtain ⟨x, hx, ho⟩ := (Option.any_eq_true _ _).mp hx
  obtain ⟨y, hy, hd⟩ := (Option.any_eq_true _ _).mp hy
  have hd : y.dispatcher = 0 := of_decide_eq_true hd
  have hw : Reachable w := ⟨_, rfl⟩
  have hc := (cancels_iff hw).2 w 1 x params (.number 1) 1 y (.refl w) hx ho hi hy hr hdist
  rw [hd, hn, if_neg (by rintro ⟨⟩)] at hc
  exact hc

/-- The run of the first connection ends, and its dispatcher forgets the request of the second one:
a cancellation comes in, and does not reach it. -/
theorem not_cancelled_overtaken :
    let gate : Handler :=
      { kind := .request, payload := .any, label := "g", outcome := .awaitGate "x" }
    let hang : Handler := { kind := .request, payload := .any, label := "h", outcome := .hang false }
    let w := run {} [.openScript {}, .openScript {}, .openDispatcher, .handle 0 "g" gate,
      .handle 0 "h" hang, .connect 0 0,
      .feed 0 (Message.request (.number 1) "g" .null).frame false, .settle 9, .disconnect 0 false,
      .settle 9, .connect 1 0, .feed 1 (Message.request (.number 1) "h" .null).frame false,
      .settle 9, .openGate "x", .settle 9]
    let v := run w [.feed 1 (cancelMessage (.number 1)).frame false, .settle 9]
    v.journal.isDistinct 0 = true ∧ v.journal.isDistinct 1 = true ∧
      1 ∈ w.journal.unanswered 1 (.number 1) ∧
      v.journal.received 1 =
        [.request (.number 1) "h" .null, cancelMessage (.number 1)] ∧
      (v.runs[1]?).any (fun y => !v.isCancelled y) = true := by
  decide +kernel

end Network

end Parley

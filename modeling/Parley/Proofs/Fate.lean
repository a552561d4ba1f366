import Parley.Proofs.Booking

/-!
# The fate of a call

A call waits until one of four things happens: a reply with its identifier comes in over its own
connection, the end of that connection begins, its time is over, or it is given up. The first of
them is its fate, and what comes later does not change it. Who waits is told once, and what he is
told is what the fate means. A fifth is as good as impossible: when all identifiers were given,
another call may get the same one.

- `Fate`, `Journal.fate`: the fate of a call, read off the journal.
- `Call.Learns`: what each fate means for who waits.
- `Decides`: the events that decide, which `Journal.decided_by` finds in the journal.
- `Journal.told`: what the one who waits for a call was told.
- `Call.Fits`: how far a call is fits its fate.
- `Network.Settled.step`: this is kept.
-/

namespace Parley

/-- What is decided about a call. -/
inductive Fate where
  /-- It has not begun. -/
  | unborn
  | pending
  | answered (r : Reply)
  /-- The end of its connection began. -/
  | closed
  /-- Its time was over. -/
  | expired
  /-- It was given up. -/
  | dropped
  /-- Its identifier went to another call. -/
  | stranded
  deriving DecidableEq, Repr

namespace Fate

/-- What an event decides about a call, which is known by its number, its connection and its
identifier. Only a call that is pending can be decided. -/
def after (k c : Nat) (id : Id) : Fate → Event → Fate
  | .unborn, .started n => if n = k then .pending else .unborn
  | .pending, .received d (.reply r) => if d = c ∧ r.id = id then .answered r else .pending
  | .pending, .cut d _ => if d = c then .closed else .pending
  | .pending, .ended n _ => if n = k then .expired else .pending
  | .pending, .dropped n => if n = k then .dropped else .pending
  | .pending, .stranded n => if n = k then .stranded else .pending
  | f, _ => f

/-- What a fate means for who waits: nothing as long as there is none, and nothing for a call that
was given up. -/
def outcome (x : Call) : Fate → Option (Except CallError Json)
  | .answered r => some (x.outcomeOf r)
  | .closed | .stranded => some (.error .connectionClosed)
  | .expired => some (.error (.timedOut x.method))
  | .unborn | .pending | .dropped => none

/-- Whether something is decided. -/
def isDecided : Fate → Bool
  | .answered _ | .closed | .expired | .dropped | .stranded => true
  | .unborn | .pending => false

variable {k c : Nat} {id : Id} {f : Fate} {e : Event}

/-- **What comes later changes nothing.** -/
theorem after_of_isDecided (h : f.isDecided = true) (e : Event) : f.after k c id e = f := by
  cases f with
  | unborn => cases h
  | pending => cases h
  | _ => rfl

/-- What settles no call leaves the fate of each as it is. -/
theorem after_of_not_settles (h : e.settles = false) : f.after k c id e = f := by
  cases f with
  | unborn => cases e <;> first | rfl | cases h
  | pending =>
    cases e with
    | received d m => cases m <;> first | rfl | cases h
    | _ => first | rfl | cases h
  | _ => rfl

/-- A call that has an outcome is decided. -/
theorem isDecided_of_outcome {x : Call} {o : Except CallError Json} (h : f.outcome x = some o) :
    f.isDecided = true := by
  cases f <;> first | rfl | cases h

/-- Who is told that the connection is gone is not told that the time is over. -/
theorem ne_expired {x : Call} (h : f.outcome x = some (.error .connectionClosed)) :
    f ≠ .expired := by
  rintro rfl
  exact absurd h (by simp [outcome])

end Fate

/-! ## What a fate means -/

/-- What who waits for a call learns of its fate. Who gave up learns nothing, and nobody learns of a
fate that is not decided. -/
inductive Call.Learns (x : Call) : Fate → Except CallError Json → Prop where
  /-- A failure in the reply is passed on as it is. -/
  | failure {r : Reply} {f : Failure} (h : r.failure = some f) :
      Learns x (.answered r) (.error (.failure f))
  /-- A command has no result but that it is done, whatever the reply carries. -/
  | done {r : Reply} (h : r.failure = none) (hs : x.shape = none) :
      Learns x (.answered r) (.ok .null)
  /-- The result is converted to the type that was asked for; one that is missing is `null`. -/
  | value {r : Reply} {s : Json.Shape} {v : Json} (h : r.failure = none) (hs : x.shape = some s)
      (hv : s.ofJson (r.result.getD .null) = .ok v) : Learns x (.answered r) (.ok v)
  /-- It does not convert. -/
  | unfit {r : Reply} {s : Json.Shape} {cause : Json.Cause} (h : r.failure = none)
      (hs : x.shape = some s) (hv : s.ofJson (r.result.getD .null) = .error cause) :
      Learns x (.answered r) (.error (.conversion cause))
  | closed : Learns x .closed (.error .connectionClosed)
  | stranded : Learns x .stranded (.error .connectionClosed)
  | expired : Learns x .expired (.error (.timedOut x.method))

/-- **What a reply means for a call** is said case by case: its failure, that a command is done, or
the result in the type that was asked for. -/
theorem Call.learns_outcomeOf (x : Call) (r : Reply) : x.Learns (.answered r) (x.outcomeOf r) := by
  rw [outcomeOf, Reply.outcome]
  cases h : r.failure with
  | some f => exact .failure h
  | none =>
    simp only
    cases hs : x.shape with
    | none => exact .done h hs
    | some s =>
      simp only
      cases hv : s.ofJson (r.result.getD .null) with
      | ok v => exact .value h hs hv
      | error cause => exact .unfit h hs hv

/-- Nothing but what the program makes of a fate is learned of it. -/
theorem Fate.outcome_eq_some_iff {x : Call} {f : Fate} {o : Except CallError Json} :
    f.outcome x = some o ↔ x.Learns f o := by
  -- Both ways by the cases of the fate; an answered call by the shape that was asked for.
  constructor
  · intro h
    cases f with
    | answered r =>
      obtain rfl := Option.some.inj h
      exact x.learns_outcomeOf r
    | closed =>
      obtain rfl := Option.some.inj h
      exact .closed
    | stranded =>
      obtain rfl := Option.some.inj h
      exact .stranded
    | expired =>
      obtain rfl := Option.some.inj h
      exact .expired
    | _ => cases h
  · intro h
    cases h with
    | failure h => simp [outcome, Call.outcomeOf, Reply.outcome, h]
    | done h hs => simp [outcome, Call.outcomeOf, Reply.outcome, h, hs]
    | value h hs hv | unfit h hs hv =>
      simp [outcome, Call.outcomeOf, Reply.outcome, h, hs, hv, Except.mapError]
    | _ => rfl

/-- The events that decide about a call that is pending. -/
inductive Decides (k c : Nat) (id : Id) : Event → Fate → Prop where
  /-- A reply comes in over its connection, under its identifier. -/
  | reply {r : Reply} (h : r.id = id) : Decides k c id (.received c (.reply r)) (.answered r)
  /-- The end of its connection begins. -/
  | cut {flush : Bool} : Decides k c id (.cut c flush) .closed
  /-- Who waits is told, before anything else is decided. -/
  | ended {o : Except CallError Json} : Decides k c id (.ended k o) .expired
  | dropped : Decides k c id (.dropped k) .dropped
  | stranded : Decides k c id (.stranded k) .stranded

/-- An event decides about a pending call, or it is pending still. -/
theorem Fate.after_pending (k c : Nat) (id : Id) (e : Event) :
    Fate.after k c id .pending e = .pending ∨ Decides k c id e (.after k c id .pending e) := by
  cases e with
  | received d m =>
    cases m with
    | reply r =>
      rw [after]
      split
      · next h =>
        obtain ⟨rfl, rfl⟩ := h
        exact .inr (.reply rfl)
      · exact .inl rfl
    | _ => exact .inl rfl
  | cut | ended | dropped | stranded =>
    rw [after]
    split
    · next h =>
      subst h
      exact .inr (by constructor)
    · exact .inl rfl
  | _ => exact .inl rfl

namespace Journal

/-- What is decided about a call, by the first event that decides. -/
def fate (k c : Nat) (id : Id) : Journal → Fate
  | [] => .unborn
  | e :: j => (fate k c id j).after k c id e

/-- What the one who waits for a call was told, each time. -/
def told (k : Nat) : Journal → List (Except CallError Json)
  | [] => []
  | .ended n o :: j => if n = k then told k j ++ [o] else told k j
  | _ :: j => told k j

variable {k c : Nat} {id : Id} {es j : Journal}

/-- Once decided, decided for good. -/
theorem fate_of_isDecided (h : (j.fate k c id).isDecided = true) (es : Journal) :
    Journal.fate k c id (es ++ j) = j.fate k c id := by
  induction es with
  | nil => rfl
  | cons e es ih =>
    rw [List.cons_append, fate, ih]
    exact Fate.after_of_isDecided h e

/-- **What is decided was decided by the first event that decides**: the call was pending until
then. -/
theorem decided_by (h : (j.fate k c id).isDecided = true) :
    ∃ late e early, j = late ++ e :: early ∧ Journal.fate k c id early = .pending ∧
      Decides k c id e (j.fate k c id) := by
  induction j with
  | nil => cases h
  | cons e j ih =>
    -- Either the call was decided before this event, and nothing that came later changed that, or
    -- this is the event.
    by_cases hj : (Journal.fate k c id j).isDecided = true
    · obtain ⟨late, e', early, hsplit, hp, hd⟩ := ih hj
      rw [fate, Fate.after_of_isDecided hj]
      exact ⟨e :: late, e', early, by rw [hsplit, List.cons_append], hp, hd⟩
    · rw [fate] at h ⊢
      cases hf : Journal.fate k c id j with
      | unborn =>
        rw [hf] at h
        cases e with
        | started n =>
          rw [Fate.after] at h
          split at h <;> cases h
        | _ => cases h
      | pending =>
        rw [hf] at h
        rcases Fate.after_pending k c id e with hp | hd
        · rw [hp] at h
          cases h
        · exact ⟨[], e, j, rfl, hf, hd⟩
      | _ =>
        rw [hf] at hj
        exact absurd rfl hj

/-- The reply that decides about a call came in over its connection, under its identifier. -/
theorem mem_received_of_fate {a : Reply} (h : j.fate k c id = .answered a) :
    .reply a ∈ j.received c ∧ a.id = id := by
  have hdecided : (j.fate k c id).isDecided = true := by
    rw [h]
    rfl
  obtain ⟨late, e, early, hj, -, hd⟩ := decided_by hdecided
  rw [h] at hd
  cases hd with
  | reply hid =>
    refine ⟨?_, hid⟩
    rw [hj, received_append, received, if_pos rfl]
    simp

/-- Events that settle nothing leave the fate of a call. -/
theorem fate_quiet (h : ∀ e ∈ es, e.settles = false) :
    Journal.fate k c id (es ++ j) = j.fate k c id := by
  induction es with
  | nil => rfl
  | cons e es ih =>
    rw [List.cons_append, fate, ih fun e he => h e (List.mem_cons_of_mem _ he)]
    exact Fate.after_of_not_settles (h e List.mem_cons_self)

/-- And what its caller was told. -/
theorem told_quiet (h : ∀ e ∈ es, e.settles = false) : Journal.told k (es ++ j) = j.told k := by
  induction es with
  | nil => rfl
  | cons e es ih =>
    have ih := ih fun e he => h e (List.mem_cons_of_mem _ he)
    have he := h e List.mem_cons_self
    cases e <;> first | exact ih | cases he

end Journal

/-! ## How far a call is -/

/-- How far a call is fits its fate, and what was told about it, at a time. -/
inductive Call.Fits (x : Call) (t : Nat) : Fate → List (Except CallError Json) → Prop where
  | waiting (h : x.state = .waiting) : Fits x t .pending []
  | answered {r : Reply} (h : x.state = .answered r) : Fits x t (.answered r) []
  | closed {f : Fate} (h : x.state = .closed)
      (hf : f.outcome x = some (.error .connectionClosed)) : Fits x t f []
  | told {f : Fate} {o : Except CallError Json} (h : x.state = .ended o)
      (hf : f.outcome x = some o) (ht : f = .expired → x.isOverdue t = true) : Fits x t f [o]
  | dropped {f : Fate} (h : x.state = .dropped) (hf : f.isDecided = true) (ht : f ≠ .expired) :
      Fits x t f []

namespace Call

/-- A deadline that has passed has passed. -/
theorem isOverdue_mono {x : Call} {t t' : Nat} (h : x.isOverdue t = true) (ht : t ≤ t') :
    x.isOverdue t' = true := by
  obtain ⟨d, hd, hle⟩ := (Option.any_eq_true _ _).mp h
  refine (Option.any_eq_true _ _).mpr ⟨d, hd, ?_⟩
  have : d ≤ t := of_decide_eq_true hle
  exact decide_eq_true (Nat.le_trans this ht)

namespace Fits

variable {x : Call} {t : Nat} {f : Fate} {os : List (Except CallError Json)}

/-- A call that fits what the journal says goes on fitting as time goes by. -/
theorem mono (h : x.Fits t f os) {t' : Nat} (ht : t ≤ t') : x.Fits t' f os := by
  cases h with
  | waiting h => exact .waiting h
  | answered h => exact .answered h
  | closed h hf => exact .closed h hf
  | told h hf he => exact .told h hf fun hx => isOverdue_mono (he hx) ht
  | dropped h hf he => exact .dropped h hf he

/-- A call that has begun is pending or decided. -/
theorem ne_unborn (h : x.Fits t f os) : f ≠ .unborn := by
  cases h with
  | waiting h => rintro ⟨⟩
  | answered h => rintro ⟨⟩
  | closed h hf =>
    rintro rfl
    cases hf
  | told h hf ht =>
    rintro rfl
    cases hf
  | dropped h hf ht =>
    rintro rfl
    cases hf

/-- A call waits as long as its fate is open. -/
theorem pending_iff (h : x.Fits t f os) : f = .pending ↔ x.state = .waiting := by
  cases h with
  | waiting h => simp [h]
  | answered h => simp [h]
  | closed h hf =>
    rw [h]
    refine ⟨?_, (by rintro ⟨⟩)⟩
    rintro rfl
    cases hf
  | told h hf ht =>
    rw [h]
    refine ⟨?_, (by rintro ⟨⟩)⟩
    rintro rfl
    cases hf
  | dropped h hf ht =>
    rw [h]
    refine ⟨?_, (by rintro ⟨⟩)⟩
    rintro rfl
    cases hf

/-- A call that does not wait is decided. -/
theorem isDecided (h : x.Fits t f os) (hx : x.state ≠ .waiting) : f.isDecided = true := by
  cases f with
  | unborn => exact absurd rfl h.ne_unborn
  | pending => exact absurd (h.pending_iff.mp rfl) hx
  | _ => rfl

/-- Whoever waits was told nothing. -/
theorem of_waiting (h : x.Fits t f os) (hx : x.state = .waiting) : f = .pending ∧ os = [] := by
  cases h with
  | waiting h => exact ⟨rfl, rfl⟩
  | _ h => cases hx.symm.trans h

/-- Whoever was answered has that answer as a fate, and was not told it yet. -/
theorem of_answered {r : Reply} (h : x.Fits t f os) (hx : x.state = .answered r) :
    f = .answered r ∧ os = [] := by
  cases h with
  | answered h =>
    obtain rfl := CallState.answered.inj (hx.symm.trans h)
    exact ⟨rfl, rfl⟩
  | _ h => cases hx.symm.trans h

/-- Whoever waits at a closed connection learns that it is closed. -/
theorem of_closed (h : x.Fits t f os) (hx : x.state = .closed) :
    f.outcome x = some (.error .connectionClosed) ∧ os = [] := by
  cases h with
  | closed h hf => exact ⟨hf, rfl⟩
  | _ h => cases hx.symm.trans h

/-- Whatever was told is what the fate means. -/
theorem outcome_of_mem {o : Except CallError Json} (h : x.Fits t f os) (ho : o ∈ os) :
    f.outcome x = some o := by
  cases h with
  | told h hf ht =>
    obtain rfl := List.mem_singleton.mp ho
    exact hf
  | _ => exact absurd ho List.not_mem_nil

/-- A call about which nothing new is decided, and nobody is told anything. -/
theorem keep {k c : Nat} {id : Id} {e : Event} (h : x.Fits t f os)
    (hp : x.state = .waiting → Fate.after k c id .pending e = .pending) :
    x.Fits t (f.after k c id e) os := by
  by_cases hx : x.state = .waiting
  · have hf := h.pending_iff.mpr hx
    subst hf
    rwa [hp hx]
  · rwa [Fate.after_of_isDecided (h.isDecided hx)]

/-- A call about which nobody was told yet is decided by the time it is given up, and its time was
not what decided. -/
theorem of_not_isOver (k c : Nat) (id : Id) (h : x.Fits t f os) (hx : x.isOver = false) :
    os = [] ∧ (f.after k c id (.dropped k)).isDecided = true ∧
      f.after k c id (.dropped k) ≠ .expired := by
  cases h with
  | waiting h =>
    rw [Fate.after, if_pos rfl]
    exact ⟨rfl, rfl, by rintro ⟨⟩⟩
  | answered h => exact ⟨rfl, rfl, by rintro ⟨⟩⟩
  | closed h hf =>
    rw [Fate.after_of_isDecided (Fate.isDecided_of_outcome hf)]
    exact ⟨rfl, Fate.isDecided_of_outcome hf, Fate.ne_expired hf⟩
  | told h => simp [isOver, h] at hx
  | dropped h => simp [isOver, h] at hx

end Fits

end Call

namespace Network

variable {w w' : Network} {c : Nat}

/-! ## Calls that have not begun -/

/-- Nothing is decided about calls that have not begun, and nobody was told anything. -/
def Unbegun (w : Network) : Prop :=
  ∀ k, w.calls.length ≤ k → (∀ c id, w.journal.fate k c id = .unborn) ∧ w.journal.told k = []

/-- What is new decides nothing about calls that have not begun. -/
theorem Unbegun.grow (es : List Event) (hU : w.Unbegun) (hl : w.calls.length ≤ w'.calls.length)
    (hj : w'.journal = es ++ w.journal)
    (hs : ∀ k, w'.calls.length ≤ k → .started k ∉ es ∧ ∀ o, .ended k o ∉ es) : w'.Unbegun := by
  intro k hk
  obtain ⟨hf, ht⟩ := hU k (Nat.le_trans hl hk)
  obtain ⟨h1, h2⟩ := hs k hk
  rw [hj]
  clear hj hs
  -- Event by event: none of them starts or ends a call of that number.
  induction es with
  | nil => exact ⟨hf, ht⟩
  | cons e es ih =>
    obtain ⟨hf', ht'⟩ := ih (fun h => h1 (List.mem_cons_of_mem _ h))
      fun o h => h2 o (List.mem_cons_of_mem _ h)
    refine ⟨fun c id => ?_, ?_⟩
    · rw [List.cons_append, Journal.fate, hf']
      cases e with
      | started n =>
        have hn : n ≠ k := fun h => h1 (by simp [h])
        rw [Fate.after, if_neg hn]
      | _ => rfl
    · cases e with
      | ended n o =>
        have hn : n ≠ k := fun h => h2 o (by simp [h])
        rwa [List.cons_append, Journal.told, if_neg hn]
      | _ => exact ht'

/-- Whatever is decided about calls that are there decides nothing about the others. -/
theorem Unbegun.about {e : Event} (es : List Event) (hU : w.Unbegun)
    (hl : w'.calls.length = w.calls.length) (hj : w'.journal = e :: es ++ w.journal)
    (he : ∀ e ∈ es, e.settles = false) (hs : ∀ k, e ≠ .started k)
    (ho : ∀ k o, e = .ended k o → k < w.calls.length) : w'.Unbegun := by
  refine hU.grow (e :: es) (Nat.le_of_eq hl.symm) hj fun k hk => ⟨fun hm => ?_, fun o hm => ?_⟩
  · rcases List.mem_cons.mp hm with h | hm
    · exact hs k h.symm
    · cases he _ hm
  · rcases List.mem_cons.mp hm with h | hm
    · have := ho k o h.symm
      omega
    · cases he _ hm

/-- Deals begin calls in order, so numbers ahead of the last call stay free. -/
theorem Unbegun.step (hU : w.Unbegun) (h : Deal w w') : w'.Unbegun := by
  -- Who is told something waits for a call that is there.
  have told : ∀ {n : Nat} {x : Call} {o : Except CallError Json}, w.calls[n]? = some x →
      ∀ k o', Event.ended n o = .ended k o' → k < w.calls.length := fun hn k o' he => by
    obtain ⟨rfl, -⟩ := Event.ended.inj he
    exact (List.getElem?_eq_some_iff.mp hn).1
  cases h with
  | quiet hc ht hk hj he =>
    refine hU.grow _ (Nat.le_of_eq (by rw [hc])) hj fun k _ => ⟨fun hm => ?_, fun o hm => ?_⟩
    · cases he _ hm
    · cases he _ hm
  | stray => exact hU.about [] rfl rfl (by simp) (by simp) (by simp)
  | @begin l l' x params hl hs hn hx ht =>
    refine hU.grow [.accepted x.conn (.request x.id x.method params),
      .started w.calls.length] ?_ rfl fun k hk => ?_
    · simp [begun]
    · have hk : w.calls.length + 1 ≤ k := by simpa [begun] using hk
      refine ⟨fun hm => ?_, by simp⟩
      have : k = w.calls.length := by simpa using hm
      omega
  | learn hk hx => exact hU.about [] (List.length_modify ..) rfl (by simp) (by simp) (told hk)
  | lose hk hx => exact hU.about [] (List.length_modify ..) rfl (by simp) (by simp) (told hk)
  | @expire n x hk hx hd ho =>
    obtain ⟨es, hj, he⟩ := settles_withdraw w x.conn x.id
    exact hU.about es (List.length_modify ..) (congrArg (List.cons _) hj) he (by simp) (told hk)
  | @drop n x hk hx ho =>
    obtain ⟨es, hj, he⟩ := settles_withdraw w x.conn x.id
    exact hU.about es (List.length_modify ..) (congrArg (List.cons _) hj) he (by simp) (by simp)
  | @remove c k x id l l' s e hx hl ha hr =>
    refine hU.about [] (List.length_modify ..) rfl (by simp) (fun n he => ?_) fun n o he => ?_
    · cases hr <;> cases he
    · cases hr <;> cases he
  | cut => exact hU.about [] (length_resolved _ _ _) rfl (by simp) (by simp) (by simp)

/-! ## Calls that have begun -/

/-- How far each call over a connection is fits its fate. -/
def Settled (w : Network) (c : Nat) : Prop :=
  ∀ (k : Nat) (x : Call), w.calls[k]? = some x → x.conn = c →
    x.Fits w.clock (w.journal.fate k c x.id) (w.journal.told k)

namespace Settled

variable {k : Nat} {x : Call} {e : Event}

/-- The state of one call changes, and what is new is about it alone. -/
theorem change (f : Call → Call) (es : List Event) (hS : w.Settled c) (hf : ∀ y, (f y).key = y.key)
    (hc : w'.calls = w.calls.modify k f) (ht : w'.clock = w.clock)
    (hj : w'.journal = e :: es ++ w.journal) (he : ∀ e ∈ es, e.settles = false)
    (hk : ∀ y, w.calls[k]? = some y → y.conn = c →
      (f y).Fits w.clock ((w.journal.fate k c y.id).after k c y.id e)
        (Journal.told k (e :: w.journal)))
    (hn : ∀ {n : Nat} (y : Call), k ≠ n → w.calls[n]? = some y → y.conn = c →
      (y.state = .waiting → Fate.after n c y.id .pending e = .pending) ∧
        Journal.told n (e :: w.journal) = w.journal.told n) : w'.Settled c := by
  -- Only the one event settles anything; those after it are quiet.
  have hfate : ∀ n id, w'.journal.fate n c id = (w.journal.fate n c id).after n c id e :=
    fun n id => by rw [hj, List.cons_append, Journal.fate, Journal.fate_quiet he]
  have htold : ∀ n, w'.journal.told n = Journal.told n (e :: w.journal) := fun n => by
    rw [hj, List.cons_append]
    cases e <;> simp only [Journal.told, Journal.told_quiet he]
  intro n z hz hzc
  rw [hc] at hz
  obtain ⟨y, hy, rfl⟩ := getElem?_modify_eq_some hz
  rw [ht, hfate, htold]
  -- The call that is changed is what the event is about, and the others are not touched by it.
  by_cases h : k = n
  · subst h
    rw [if_pos rfl] at hzc ⊢
    obtain ⟨h1, h2⟩ := Prod.mk.inj (hf y)
    rw [h2]
    exact hk y hy (h1.symm.trans hzc)
  · rw [if_neg h] at hzc ⊢
    obtain ⟨hp, ho⟩ := hn y h hy hzc
    rw [ho]
    exact (hS n y hy hzc).keep hp

/-- A reply that no request waits for decides nothing. -/
theorem stray {d : Nat} {y : Connection} {r : Reply} (hS : w.Settled c) (hA : w.Awaited c)
    (hy : w.conns[d]? = some y) (hl : y.table.lookup r.id = none) :
    (w.emit (.received d (.reply r))).Settled c := by
  intro k x hx hxc
  refine (hS k x hx hxc).keep fun hw => ?_
  -- A call that waits has its entry, so the reply is not for it.
  have hm := hA k x hx hxc hw
  rw [Fate.after, if_neg]
  rintro ⟨rfl, hi⟩
  rw [table_of_conn hy, ← hi] at hm
  rw [List.lookup_eq_none_iff] at hl
  exact absurd (hl _ hm) (by simp)

/-- A call that begins is pending. -/
theorem begun {l' : Link} {y : Call} {params : Json} (hS : w.Settled c) (hU : w.Unbegun)
    (hy : y.state = .waiting) : (w.begun y l' params).Settled c := by
  intro k x hx hxc
  have hf : (w.begun y l' params).journal.fate k c x.id =
      (w.journal.fate k c x.id).after k c x.id (.started w.calls.length) :=
    Fate.after_of_not_settles rfl
  have ht : (w.begun y l' params).journal.told k = w.journal.told k := rfl
  rw [hf, ht]
  rcases getElem?_append_one hx with hx | ⟨rfl, rfl⟩
  · exact (hS k x hx hxc).keep fun _ => rfl
  · obtain ⟨hf, ht⟩ := hU w.calls.length (Nat.le_refl _)
    rw [hf, ht, Fate.after, if_pos rfl]
    exact .waiting hy

/-- Who waits for a call is told what the fate of the call means. -/
theorem ended {n : Nat} {y : Call} {o : Except CallError Json} (es : List Event)
    (hS : w.Settled c) (hn : w.calls[n]? = some y)
    (hc : w'.calls = w.calls.modify n fun x => { x with state := .ended o })
    (ht : w'.clock = w.clock) (hj : w'.journal = .ended n o :: es ++ w.journal)
    (he : ∀ e ∈ es, e.settles = false)
    (ho : ∀ {f os}, y.Fits w.clock f os →
      os = [] ∧ (f.after n c y.id (.ended n o)).outcome y = some o ∧
        (f.after n c y.id (.ended n o) = .expired → y.isOverdue w.clock = true)) :
    w'.Settled c := by
  refine hS.change (fun x => { x with state := .ended o }) es (fun _ => rfl) hc ht hj he
    (fun x hx hxc => ?_) fun {m} x hne _ _ => ?_
  · obtain rfl := Option.some.inj (hn.symm.trans hx)
    obtain ⟨hos, hf, hd⟩ := ho (hS n y hx hxc)
    rw [Journal.told, if_pos rfl, hos]
    exact .told rfl hf hd
  · exact ⟨fun _ => by rw [Fate.after, if_neg hne], by rw [Journal.told, if_neg hne]⟩

/-- A call is given up. -/
theorem givenUp {n : Nat} {y : Call} (hS : w.Settled c) (hn : w.calls[n]? = some y)
    (hy : y.isOver = false) : (w.givenUp n y).Settled c := by
  obtain ⟨es, hj, he⟩ := settles_withdraw w y.conn y.id
  have hj' : (w.givenUp n y).journal = .dropped n :: es ++ w.journal := by
    rw [List.cons_append, ← hj]
    rfl
  have htold : Journal.told n (.dropped n :: w.journal) = w.journal.told n := rfl
  refine hS.change (fun x => { x with state := .dropped }) es (fun _ => rfl) rfl rfl hj' he
    (fun x hx hxc => ?_) fun {m} x hne _ _ => ?_
  · obtain rfl := Option.some.inj (hn.symm.trans hx)
    obtain ⟨hos, hd, hf⟩ := (hS n y hx hxc).of_not_isOver n c y.id hy
    rw [htold, hos]
    exact .dropped rfl hd hf
  · exact ⟨fun _ => by rw [Fate.after, if_neg hne], rfl⟩

/-- The entry of a call is taken out, which decides about that call and about no other one. -/
theorem resolved {d n : Nat} {id : Id} {z : Call} {s : CallState} (hS : w.Settled c)
    (hB : w.Booked) (hA : w.Awaited c) (hm : (id, n) ∈ w.table d) (hz : w.calls[n]? = some z)
    (hzd : z.conn = d) (hzi : z.id = id) (hzs : z.state = .waiting) (hr : w.Removal d n id s e)
    (hc : w'.calls = w.calls.modify n (·.resolve s)) (ht : w'.clock = w.clock)
    (hj : w'.journal = e :: w.journal) : w'.Settled c := by
  have htold : ∀ m, Journal.told m (e :: w.journal) = w.journal.told m := fun m => by
    cases hr <;> rfl
  refine hS.change (fun x => x.resolve s) [] (Call.key_resolve _) hc ht hj (by simp)
    (fun x hx hxc => ?_) fun {m} x hne hx hxc => ⟨fun hw => ?_, htold m⟩
  · obtain rfl := Option.some.inj (hz.symm.trans hx)
    obtain ⟨hf, ht⟩ := (hS n z hx hxc).of_waiting hzs
    rw [hf, htold, ht, Call.resolve, if_pos (Call.isWaiting_iff.mpr hzs)]
    cases hr with
    | answer r =>
      rw [Fate.after, if_pos ⟨hzd.symm.trans hxc, hzi.symm⟩]
      exact .answered rfl
    | strand =>
      rw [Fate.after, if_pos rfl]
      exact .closed rfl rfl
  · cases hr with
    | answer r =>
      rw [Fate.after, if_neg]
      rintro ⟨rfl, hi⟩
      -- The entry under the identifier of the reply belongs to one call.
      have hm' := hA m x hx hxc hw
      rw [← hi] at hm'
      exact hne (hB.unique hm hm')
    | strand => rw [Fate.after, if_neg hne]

/-- The end of a connection begins, which decides about the calls over it that wait. -/
theorem severed {d : Nat} {y : Connection} (hS : w.Settled c) (hB : w.Booked) (hA : w.Awaited c)
    (hy : w.conns[d]? = some y) (flush : Bool) : (w.severed d y flush).Settled c := by
  intro k x hx hxc
  rw [getElem?_severed] at hx
  obtain ⟨z, hz, rfl⟩ := Option.map_eq_some_iff.mp hx
  have ht : (w.severed d y flush).journal.told k = w.journal.told k := rfl
  have hf : ∀ id, (w.severed d y flush).journal.fate k c id =
    (w.journal.fate k c id).after k c id (.cut d flush) := fun _ => rfl
  rw [ht, hf]
  by_cases hw : k ∈ y.waiters
  · rw [if_pos hw] at hxc ⊢
    -- Who has an entry in the table waits for a call over this connection.
    have hw' := hw
    rw [← y.map_snd_table, ← table_of_conn hy] at hw'
    obtain ⟨p, hp, rfl⟩ := List.mem_map.mp hw'
    obtain ⟨z', hz', hzc, hzi, hzs⟩ := hB.entry hp
    obtain rfl := Option.some.inj (hz.symm.trans hz')
    obtain ⟨h1, h2⟩ := Prod.mk.inj (Call.key_resolve .closed z)
    have hc : z.conn = c := h1.symm.trans hxc
    obtain ⟨hfz, htz⟩ := (hS _ z hz hc).of_waiting hzs
    rw [h2, hfz, htz, Fate.after, if_pos (hzc.symm.trans hc), Call.resolve,
      if_pos (Call.isWaiting_iff.mpr hzs)]
    exact .closed rfl rfl
  · rw [if_neg hw] at hxc ⊢
    refine (hS k z hz hxc).keep fun hzs => ?_
    rw [Fate.after, if_neg]
    rintro rfl
    have hm := hA k z hz hxc hzs
    rw [table_of_conn hy] at hm
    rw [← y.map_snd_table] at hw
    exact hw (List.mem_map_of_mem hm)

/-- What is decided about a call is decided by the first event that takes its entry out of the
table, and what is told is what that means. -/
theorem step (hS : w.Settled c) (hU : w.Unbegun) (hB : w.Booked) (hA : w.Awaited c)
    (h : Deal w w') : w'.Settled c := by
  -- One case per deal. In those that end a call, what is to be shown is that the caller is told
  -- what the fate says, and that nothing was told before.
  cases h with
  | quiet hc ht hk hj he =>
    intro k x hx hxc
    rw [hc] at hx
    rw [hj, Journal.fate_quiet he, Journal.told_quiet he]
    exact (hS k x hx hxc).mono hk
  -- An answer to a request nobody waits for any more decides nothing.
  | stray hy hl => exact hS.stray hA hy hl
  | begin hl hs hn hy ht => exact hS.begun hU hy
  -- The answer has come before; now the caller is told.
  | @learn n y r hn hy =>
    refine hS.ended [] hn rfl rfl rfl (by simp) fun h => ?_
    obtain ⟨rfl, rfl⟩ := h.of_answered hy
    exact ⟨rfl, rfl, by rintro ⟨⟩⟩
  | @lose n y hn hy =>
    refine hS.ended [] hn rfl rfl rfl (by simp) fun h => ?_
    obtain ⟨hf, rfl⟩ := h.of_closed hy
    rw [Fate.after_of_isDecided (Fate.isDecided_of_outcome hf)]
    exact ⟨rfl, hf, fun he => absurd he (Fate.ne_expired hf)⟩
  -- The deadline ends a call that is still open. The cancellation behind it settles nothing.
  | @expire n y hn hy hd ho =>
    obtain ⟨es, hj, he⟩ := settles_withdraw w y.conn y.id
    have hj' : (w.expired n y).journal =
        .ended n (.error (.timedOut y.method)) :: es ++ w.journal := by
      rw [List.cons_append, ← hj]
      rfl
    refine hS.ended es hn rfl rfl hj' he fun h => ?_
    obtain ⟨rfl, rfl⟩ := h.of_waiting hy
    rw [Fate.after, if_pos rfl]
    exact ⟨rfl, rfl, fun _ => hd⟩
  | drop hn hy ho => exact hS.givenUp hn hy
  -- Here a call is decided: by its reply, or by the end of its connection.
  | remove hy hl ha hr =>
    obtain ⟨hm, z, hz, hzc, hzi, hzs⟩ := hB.removed hy hl ha
    exact hS.resolved hB hA hm hz hzc hzi hzs hr rfl rfl rfl
  | cut flush hy => exact hS.severed hB hA hy flush

end Settled

end Network

end Parley

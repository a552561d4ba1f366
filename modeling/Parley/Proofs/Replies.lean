import Parley.Proofs.Requests

/-!
# One reply for each request

Every request that comes in is refused at once or gets a run of its own, and every run ends at most
once. The replies that a connection accepts are those of its refusals and of its runs that end
before its own end begins; nothing else is ever answered.

- `Journal.Origin`: where a reply comes from.
- `Network.Served`: the requests, the runs and the replies of a network fit together.
- `Network.Served.step`: this is kept.
- `Network.Ordered`: what is kept along with it.
- `Network.Reachable.served`: it holds in every network that any use leads to.
- `Network.Reachable.origin`: the request that a reply answers, and what it carries.
-/

namespace Parley

/-- How a run ended: over which connection, for which request, and with what. -/
def Run.ending? (y : Run) : Option (Nat × Option Id × Except Failure Json) :=
  y.outcome?.map fun o => (y.conn, y.id, o)

/-- Whether a run still owes an answer to a request over a connection. -/
def Run.owes (c : Nat) (id : Id) (y : Run) : Bool :=
  y.conn = c && y.id = some id && y.outcome?.isNone

namespace Run

variable {y : Run}

/-- A run without an id came from a notification. -/
theorem message_of_none (h : y.id = none) : y.message = .notification y.method y.params := by
  rw [message, h, Option.elim_none]

/-- A run with an id came from the request of that id. -/
theorem message_of_some {id : Id} (h : y.id = some id) :
    y.message = .request id y.method y.params := by
  rw [message, h, Option.elim_some]

/-- A run that has not begun has no outcome. -/
theorem outcome?_of_fresh (h : y.stage = .fresh) : y.outcome? = none := by
  rw [outcome?, h]

end Run

/-! ## Replies that are due -/

/-- Where a reply comes from: its request was refused, or the run that served it has ended. -/
inductive Journal.Origin (c : Nat) (j : Journal) : Reply → Prop where
  | refused {id : Id} {method : String} {params : Json} (h : .unserved c id method params ∈ j) :
      Origin c j (.carrying id (.error ⟨.methodNotFound, "No such method " ++ method, none⟩))
  | served {r : Nat} {id : Id} {outcome : Except Failure Json}
      (h : .finished r c (some id) outcome ∈ j) : Origin c j (.carrying id outcome)

/-- A reply that has an origin keeps it, whatever happens later. -/
theorem Journal.Origin.cons {c : Nat} {j : Journal} {r : Reply} (h : Origin c j r) (e : Event) :
    Origin c (e :: j) r := by
  cases h with
  | refused h => exact .refused (List.mem_cons_of_mem e h)
  | served h => exact .served (List.mem_cons_of_mem e h)

/-- Every reply that is due has an origin. -/
theorem Journal.origin_of_mem_due {c : Nat} {r : Reply} {j : Journal} (h : r ∈ j.due c) :
    j.Origin c r := by
  induction j with
  | nil => exact absurd h List.not_mem_nil
  | cons e j ih =>
    -- The newest event decides: it is the origin of the last reply that is due, or all that are due
    -- were due before.
    cases e with
    | unserved d id method params =>
      rw [due] at h
      split at h
      · next hd =>
        subst hd
        rcases List.mem_append.mp h with h | h
        · exact (ih h).cons _
        · rw [List.mem_singleton.mp h]
          exact .refused List.mem_cons_self
      · exact (ih h).cons _
    | finished n d id outcome =>
      cases id with
      | none => exact (ih h).cons _
      | some id =>
        rw [due] at h
        split at h
        · next hd =>
          obtain ⟨rfl, -⟩ := hd
          rcases List.mem_append.mp h with h | h
          · exact (ih h).cons _
          · rw [List.mem_singleton.mp h]
            exact .served List.mem_cons_self
        · exact (ih h).cons _
    | _ => exact (ih h).cons _

namespace Network

variable {w w' : Network} {c : Nat}

/-- The runs that still owe an answer to a request with an identifier, over a connection. -/
def owed (w : Network) (c : Nat) (id : Id) : Nat := w.runs.countP (Run.owes c id)

/-- The replies of a connection to requests with an identifier. -/
def answered (w : Network) (c : Nat) (id : Id) : Nat :=
  (w.journal.replies c).countP fun r => r.id = id

/-- The requests with an identifier that came in over a connection. -/
def asked (w : Network) (c : Nat) (id : Id) : Nat := (w.journal.requests c).count id

/-- The requests, the runs and the replies of a network fit together. -/
structure Served (w : Network) : Prop where
  /-- Every request is refused or gets a run. -/
  taken : ∀ c, (w.journal.received c).filter Message.isRequest = w.journal.taken c
  /-- The replies are those that are due. -/
  replies : ∀ c, w.journal.replies c = w.journal.due c
  /-- Every run began once. -/
  begun : ∀ r, w.journal.spawns r = ((w.runs[r]?).map fun y => (y.conn, y.message)).toList
  /-- Every run that has ended did so once, and no other has. -/
  ended : ∀ r, w.journal.endings r = ((w.runs[r]?).bind Run.ending?).toList
  /-- No request is answered twice. -/
  count_le : ∀ c id, w.answered c id + w.owed c id ≤ w.asked c id
  /-- As long as the connection lasts, every request is answered or has a run that goes on. -/
  count_eq : ∀ c id, w.journal.cuts c = [] → w.answered c id + w.owed c id = w.asked c id

/-- The reply that follows the end of a run changes only what is accepted. -/
theorem following_aside {α : Type} {f : Journal → α}
    (hf : ∀ (d : Nat) (m : Message) (j : Journal), f (.accepted d m :: j) = f j) (w : Network)
    (y : Run) (outcome : Except Failure Json) (j : Journal) :
    f (w.following y outcome ++ j) = f j := by
  rw [following]
  cases y.id with
  | none => rfl
  | some id =>
    rw [Option.elim_some]
    split
    · exact hf _ _ j
    · rfl

namespace Duty

/-! ## Requests that come in -/

/-- Requests are received and taken up in one step: none of them is received and forgotten. -/
theorem taken (h : Duty w w')
    (hw : (w.journal.received c).filter Message.isRequest = w.journal.taken c) :
    (w'.journal.received c).filter Message.isRequest = w'.journal.taken c := by
  cases h with
  | quiet es hr hj he =>
    rw [hj, Journal.eq_of_not_serves (f := Journal.taken c) Journal.taken_of_not_serves he, ← hw]
    exact Journal.eq_of_not_serves (f := fun j => (j.received c).filter Message.isRequest)
      Journal.received_of_not_serves he
  | @heed d _ x params hx hread hb hr hj =>
    rw [hj]
    -- A notification adds nothing on either side, a request adds itself on both.
    by_cases hc : d = c
    · simp [Journal.received, Journal.taken, hc, Message.isRequest, hw]
    · simp [Journal.received, Journal.taken, hc, hw]
  -- A run without an id came from a notification, which is not counted.
  | @spawn y hi hs hr hj =>
    rw [hj, Run.message_of_none hi, Journal.taken, if_neg (by simp [Message.isRequest])]
    exact hw
  -- A run with an id counts on both sides: it is the request that was received.
  | @serve x y id hi hs hr hj =>
    rw [hj, Run.message_of_some hi]
    by_cases hc : y.conn = c
    · simp [Journal.received, Journal.taken, hc, Message.isRequest, hw]
    · simp [Journal.received, Journal.taken, hc, hw]
  | refuse d id method params hr hj =>
    rw [hj]
    by_cases hc : d = c
    · simp [Journal.received, Journal.taken, hc, Message.isRequest, hw]
    · simp [Journal.received, Journal.taken, hc, hw]
  | @finish r y outcome hy hs hr hj =>
    rw [hj, following_aside (f := Journal.taken c) fun _ _ _ => rfl,
      following_aside (f := Journal.received c) fun _ _ _ => rfl]
    exact hw

/-! ## Replies that go out -/

/-- A reply is accepted in the step that makes it due, unless the connection is cut by then. -/
theorem replies (h : Duty w w') (hw : w.journal.replies c = w.journal.due c) :
    w'.journal.replies c = w'.journal.due c := by
  cases h with
  | quiet es hr hj he =>
    rw [hj, Journal.eq_of_not_serves (f := Journal.replies c) Journal.replies_of_not_serves he,
      Journal.eq_of_not_serves (f := Journal.due c) Journal.due_of_not_serves he, hw]
  | heed hx hread hb hr hj => rw [hj]; exact hw
  | spawn hi hs hr hj => rw [hj]; exact hw
  | serve hi hs hr hj => rw [hj]; exact hw
  | refuse d id method params hr hj =>
    rw [hj]
    -- A refused request is answered on the spot, by the loop that read it.
    by_cases hc : d = c
    · simp only [Journal.replies, Journal.accepted, Journal.due, if_pos hc, List.filterMap_append]
      exact congrArg (· ++ [_]) hw
    · simp only [Journal.replies, Journal.accepted, Journal.due, if_neg hc]
      exact hw
  | @finish r y outcome hy hs hr hj =>
    rw [hj, following_aside (f := Journal.due c) fun _ _ _ => rfl, following]
    cases hi : y.id with
    | none => exact hw
    | some id =>
      rw [Option.elim_some, Journal.due]
      by_cases hc : y.conn = c
      · subst hc
        -- Here `due` and the journal ask the same question: whether the connection is cut.
        by_cases hcut : w.journal.cuts y.conn = []
        · rw [if_pos hcut, if_pos ⟨rfl, hcut⟩, ← hw]
          simp [Journal.replies, Journal.accepted, Message.reply?, Reply.ofOutcome_eq]
        · rw [if_neg hcut, if_neg (hcut ·.2)]
          exact hw
      · have hd : ¬(y.conn = c ∧ w.journal.cuts c = []) := fun h => hc h.1
        rw [if_neg hd, ← hw]
        split
        · simp [Journal.replies, Journal.accepted, hc]
        · rfl

/-! ## The beginning and the end of a run -/

/-- What depends on the status of a run alone. -/
theorem getElem?_status {α : Type} (hr : w'.runs.map Run.status = w.runs.map Run.status)
    (g : Run × Option (Except Failure Json) → α) (r : Nat) :
    (w'.runs[r]?).map (fun y => g y.status) = (w.runs[r]?).map fun y => g y.status := by
  have h : (w'.runs.map Run.status)[r]? = (w.runs.map Run.status)[r]? := by rw [hr]
  rw [List.getElem?_map, List.getElem?_map] at h
  have hg := congrArg (Option.map g) h
  rwa [Option.map_map, Option.map_map] at hg

/-- The runs are those that the journal says were spawned, each with the message that it came from.
-/
theorem begun {r : Nat} (h : Duty w w')
    (hw : ∀ r, w.journal.spawns r = ((w.runs[r]?).map fun y => (y.conn, y.message)).toList) :
    w'.journal.spawns r = ((w'.runs[r]?).map fun y => (y.conn, y.message)).toList := by
  -- A run that is new has the next number, and no other has begun under it.
  have add : ∀ {y : Run} {j : Journal}, j.spawns r = w.journal.spawns r →
      Journal.spawns r (.spawned w.runs.length y.conn y.message :: j) =
        (((w.runs ++ [y])[r]?).map fun y => (y.conn, y.message)).toList := by
    intro y j hj
    rw [Journal.spawns, hj, hw]
    rcases Nat.lt_trichotomy r w.runs.length with hlt | heq | hgt
    · rw [if_neg (by omega), List.getElem?_append_left hlt]
    · rw [if_pos heq.symm, heq]
      simp
    · rw [if_neg (by omega), List.getElem?_eq_none (by omega),
        List.getElem?_eq_none (by simp; omega)]
  -- What a run serves does not depend on how far it is.
  have same : w'.runs.map Run.status = w.runs.map Run.status →
      w.journal.spawns r = ((w'.runs[r]?).map fun y => (y.conn, y.message)).toList := fun hr =>
    (hw r).trans
      (congrArg Option.toList (getElem?_status hr (fun p => (p.1.conn, p.1.message)) r).symm)
  cases h with
  | quiet es hr hj he =>
    rw [hj, Journal.eq_of_not_serves (f := Journal.spawns r) Journal.spawns_of_not_serves he]
    exact same hr
  | heed hx hread hb hr hj =>
    rw [hj]
    exact same (hr ▸ map_status_runsAfter w _)
  | spawn hi hs hr hj =>
    rw [hj, hr]
    exact add rfl
  | serve hi hs hr hj =>
    rw [hj, hr]
    exact add rfl
  | refuse d id method params hr hj =>
    rw [hj, hr]
    exact hw r
  | @finish s y outcome hy hs hr hj =>
    rw [hj, hr, following_aside (f := Journal.spawns r) fun _ _ _ => rfl]
    refine (hw r).trans (congrArg Option.toList ?_)
    rw [List.getElem?_modify]
    cases w.runs[r]? with
    | none => rfl
    | some z => by_cases h : s = r <;> simp [h, Run.message]

/-- The runs that are finished are those that the journal says are, each with its outcome. -/
theorem ended {r : Nat} (h : Duty w w')
    (hw : ∀ r, w.journal.endings r = ((w.runs[r]?).bind Run.ending?).toList) :
    w'.journal.endings r = ((w'.runs[r]?).bind Run.ending?).toList := by
  -- A run that is appended has no ending yet, so nothing is to be found under its number.
  have add : ∀ {y : Run}, y.stage = .fresh →
      (w.runs[r]?).bind Run.ending? = ((w.runs ++ [y])[r]?).bind Run.ending? := by
    intro y hs
    rcases Nat.lt_trichotomy r w.runs.length with hlt | heq | hgt
    · rw [List.getElem?_append_left hlt]
    · rw [heq]
      simp [Run.ending?, Run.outcome?_of_fresh hs]
    · rw [List.getElem?_eq_none (by omega), List.getElem?_eq_none (by simp; omega)]
  -- As long as no status changes, the endings are the ones before.
  have same : w'.runs.map Run.status = w.runs.map Run.status →
      w.journal.endings r = ((w'.runs[r]?).bind Run.ending?).toList := fun hr => by
    have h := getElem?_status hr (fun p => p.2.map fun o => (p.1.conn, p.1.id, o)) r
    have hb : ∀ o : Option Run, o.bind Run.ending? = (o.map Run.ending?).join := fun o => by
      cases o <;> rfl
    rw [hw, hb, hb]
    exact congrArg (fun o => (Option.join o).toList) h.symm
  cases h with
  | quiet es hr hj he =>
    rw [hj, Journal.eq_of_not_serves (f := Journal.endings r) Journal.endings_of_not_serves he]
    exact same hr
  | heed hx hread hb hr hj =>
    rw [hj]
    exact same (hr ▸ map_status_runsAfter w _)
  | spawn hi hs hr hj =>
    rw [hj, hr, ← add hs]
    exact hw r
  | serve hi hs hr hj =>
    rw [hj, hr, ← add hs]
    exact hw r
  | refuse d id method params hr hj =>
    rw [hj, hr]
    exact hw r
  | @finish s y outcome hy hs hr hj =>
    rw [hj, hr, following_aside (f := Journal.endings r) fun _ _ _ => rfl, Journal.endings, hw,
      List.getElem?_modify]
    by_cases h : s = r
    · subst h
      -- The one that finishes had no ending before and has this one now.
      have hn : y.ending? = none := by rw [Run.ending?, hs, Option.map_none]
      have hn' : ({ y with stage := .finished outcome } : Run).ending? =
          some (y.conn, y.id, outcome) := rfl
      simp [hy, hn, hn']
    · simp [h]

/-! ## Counting -/

/-- What is owed depends on the status of the runs only. -/
theorem owed_of_status (hr : w'.runs.map Run.status = w.runs.map Run.status) (c : Nat) (id : Id) :
    w'.owed c id = w.owed c id := by
  have hp : Run.owes c id = (fun p => p.1.conn = c && p.1.id = some id && p.2.isNone) ∘
    Run.status := rfl
  rw [owed, owed, hp, ← List.countP_map, ← List.countP_map, hr]

/-- A run that is new may owe an answer. -/
theorem owed_append {y : Run} (hr : w'.runs = w.runs ++ [y]) (c : Nat) (id : Id) :
    w'.owed c id = w.owed c id + if Run.owes c id y then 1 else 0 := by
  rw [owed, hr, List.countP_append, List.countP_singleton, owed]

/-- A run that ends owes nothing any more. -/
theorem owed_finished {r : Nat} {y : Run} {outcome : Except Failure Json}
    (hy : w.runs[r]? = some y)
    (hr : w'.runs = w.runs.modify r fun y => { y with stage := .finished outcome }) (c : Nat)
    (id : Id) : w'.owed c id + (if Run.owes c id y then 1 else 0) = w.owed c id := by
  obtain ⟨hlt, hget⟩ := List.getElem?_eq_some_iff.mp hy
  have hle := List.boole_getElem_le_countP (p := Run.owes c id) hlt
  have hn : Run.owes c id { y with stage := .finished outcome } = false := by
    simp [Run.owes, Run.outcome?]
  rw [hget] at hle
  rw [owed, hr, modify_eq_set hy, List.countP_set hlt, hget, hn, owed]
  simp only [Bool.false_eq_true, if_false]
  omega

/-- A request that comes in is one more that was asked. -/
theorem asked_received {d : Nat} {m : Message}
    (h : w'.journal.requests c = Journal.requests c (.received d m :: w.journal)) (id : Id) :
    w'.asked c id = w.asked c id + if d = c ∧ m.requestId? = some id then 1 else 0 := by
  rw [asked, h, Journal.requests_received, List.count_append, asked]
  by_cases hd : d = c
  · cases m <;> simp [hd, Message.requestId?, List.count_singleton]
  · simp [hd]

/-- A reply that is accepted is one more answer. -/
theorem answered_accepted {d : Nat} {r : Reply}
    (h : w'.journal.replies c = Journal.replies c (.accepted d (.reply r) :: w.journal)) (id : Id) :
    w'.answered c id = w.answered c id + if d = c ∧ r.id = id then 1 else 0 := by
  rw [answered, h, Journal.replies_accepted, List.countP_append, answered]
  by_cases hd : d = c
  · simp [hd, Message.reply?, List.countP_singleton]
  · simp [hd]

/-- The end of a run is an answer if the run owed one, as long as its connection lasts. -/
theorem answered_following {r : Nat} {y : Run} {outcome : Except Failure Json}
    (hs : y.outcome? = none)
    (hj : w'.journal = w.following y outcome ++ .finished r y.conn y.id outcome :: w.journal)
    (c : Nat) (id : Id) :
    w'.answered c id = w.answered c id +
      if Run.owes c id y = true ∧ w.journal.cuts y.conn = [] then 1 else 0 := by
  -- Without an id nothing is owed and nothing is sent.
  cases hi : y.id with
  | none =>
    rw [following, hi, Option.elim_none, List.nil_append] at hj
    rw [answered, hj, if_neg (by simp [Run.owes, hi])]
    rfl
  | some id' =>
    rw [following, hi, Option.elim_some] at hj
    -- With one, the reply goes out as long as the connection is not cut; otherwise the run owed
    -- nothing that can still be paid.
    by_cases hcut : w.journal.cuts y.conn = []
    · rw [if_pos hcut, List.singleton_append] at hj
      have hrid : (Reply.ofOutcome id' outcome).id = id' := by cases outcome <;> rfl
      have hrep : w'.journal.replies c = Journal.replies c
          (.accepted y.conn (.reply (.ofOutcome id' outcome)) :: w.journal) := by
        rw [hj, Journal.replies_accepted, Journal.replies_accepted]
        rfl
      rw [answered_accepted hrep, hrid]
      simp [Run.owes, hi, hs, hcut]
    · rw [if_neg hcut, List.nil_append] at hj
      rw [answered, hj, if_neg (hcut ·.2)]
      rfl

/-- Requests come in, and each of them is answered, or has a run, or is lost with its connection. -/
theorem count (h : Duty w w') (c : Nat) (id : Id) : ∃ new lost,
    w'.asked c id = w.asked c id + new ∧
    w'.answered c id + w'.owed c id + lost = w.answered c id + w.owed c id + new ∧
    (w'.journal.cuts c = [] → w.journal.cuts c = [] ∧ lost = 0) := by
  cases h with
  | quiet es hr hj he =>
    have hasked : w'.asked c id = w.asked c id := by
      rw [asked, asked, hj,
        Journal.eq_of_not_serves (f := Journal.requests c) Journal.requests_of_not_serves he]
    have hans : w'.answered c id = w.answered c id := by
      rw [answered, answered, hj,
        Journal.eq_of_not_serves (f := Journal.replies c) Journal.replies_of_not_serves he]
    refine ⟨0, 0, hasked, by rw [hans, owed_of_status hr], fun hc => ⟨?_, rfl⟩⟩
    rw [hj, Journal.cuts_append] at hc
    exact (List.append_eq_nil_iff.mp hc).1
  | @heed d _ x params hx hread hb hr hj =>
    have hasked : w'.asked c id = w.asked c id := by
      rw [asked, hj, Journal.requests_received]
      simp [asked, Message.requestId?]
    refine ⟨0, 0, hasked, ?_, fun hc => ⟨by rwa [hj] at hc, rfl⟩⟩
    rw [owed_of_status (hr ▸ map_status_runsAfter w _), answered, hj]
    rfl
  | @spawn y hi hs hr hj =>
    have howed : w'.owed c id = w.owed c id := by simp [owed_append hr, Run.owes, hi]
    refine ⟨0, 0, by rw [asked, hj]; rfl, ?_, fun hc => ⟨by rwa [hj] at hc, rfl⟩⟩
    rw [howed, answered, hj]
    rfl
  | @serve x y id' hi hs hr hj =>
    have hreq : w'.journal.requests c =
        Journal.requests c (.received y.conn y.message :: w.journal) := by
      rw [hj]
      rfl
    have hasked := asked_received hreq id
    -- The run owes the answer to the request that came in.
    have howes : Run.owes c id y = decide (y.conn = c ∧ y.message.requestId? = some id) := by
      simp [Run.owes, hi, Run.outcome?_of_fresh hs, Run.message_of_some hi, Message.requestId?]
    refine ⟨_, 0, hasked, ?_, fun hc => ⟨by rwa [hj] at hc, rfl⟩⟩
    have hans : w'.answered c id = w.answered c id := by
      rw [answered, hj]
      rfl
    rw [hans, owed_append hr, howes]
    simp only [decide_eq_true_eq]
    exact (Nat.add_assoc ..).symm
  | refuse d id' method params hr hj =>
    have hreq : w'.journal.requests c =
        Journal.requests c (.received d (.request id' method params) :: w.journal) := by
      rw [hj]
      rfl
    have hrep : w'.journal.replies c =
        Journal.replies c (.accepted d (.reply (.err id' (noSuchMethod method))) :: w.journal) := by
      rw [hj, Journal.replies_accepted, Journal.replies_accepted]
      rfl
    have hasked := asked_received hreq id
    have hans := answered_accepted hrep id
    have howed : w'.owed c id = w.owed c id := by rw [owed, hr, owed]
    refine ⟨_, 0, hasked, ?_, fun hc => ⟨by rwa [hj] at hc, rfl⟩⟩
    rw [hans, howed, Nat.add_zero, Nat.add_right_comm]
    exact congrArg _
      (ite_congr (by simp [Message.requestId?, Reply.err]) (fun _ => rfl) fun _ => rfl)
  | @finish r y outcome hy hs hr hj =>
    have hasked : w'.asked c id = w.asked c id := by
      rw [asked, hj, following_aside (f := Journal.requests c) fun _ _ _ => rfl]
      rfl
    have hcuts : w'.journal.cuts c = w.journal.cuts c := by
      rw [hj, following_aside (f := Journal.cuts c) fun _ _ _ => rfl]
      rfl
    refine ⟨0, if Run.owes c id y = true ∧ w.journal.cuts y.conn ≠ [] then 1 else 0, hasked, ?_,
      fun hc => ?_⟩
    · -- What the run owed is an answer now, or lost.
      rw [answered_following hs hj, ← owed_finished hy hr]
      by_cases ho : Run.owes c id y = true
      · by_cases hcut : w.journal.cuts y.conn = [] <;> simp [ho, hcut] <;> omega
      · simp [ho]
    · rw [hcuts] at hc
      refine ⟨hc, if_neg fun h => h.2 ?_⟩
      have ho := h.1
      simp only [Run.owes, Bool.and_eq_true, decide_eq_true_eq] at ho
      rw [ho.1.1, hc]

end Duty

namespace Served

/-- Every step of a network keeps the account of what it serves. -/
theorem step (h : w.Served) (hd : Duty w w') : w'.Served where
  taken c := hd.taken (h.taken c)
  replies c := hd.replies (h.replies c)
  begun r := hd.begun h.begun
  ended r := hd.ended h.ended
  count_le c id := by
    obtain ⟨new, lost, hasked, hsum, -⟩ := hd.count c id
    have := h.count_le c id
    omega
  count_eq c id hc := by
    obtain ⟨new, lost, hasked, hsum, hcuts⟩ := hd.count c id
    obtain ⟨hc, hl⟩ := hcuts hc
    have := h.count_eq c id hc
    omega

/-- Nothing has been served before the first step. -/
theorem start : ({} : Network).Served where
  taken _ := rfl
  replies _ := rfl
  begun _ := rfl
  ended _ := rfl
  count_le _ _ := Nat.le_refl _
  count_eq _ _ _ := rfl

end Served

/-- What every run keeps about connections, requests, runs and replies. -/
structure Ordered (w : Network) : Prop where
  housed : w.Housed
  sound : w.Each Connection.Sound
  linked : w.Linked
  served : w.Served

namespace Ordered

/-- Moves keep runs and requests in order. -/
theorem move (h : w.Ordered) (hm : Move w w') : w'.Ordered where
  housed := hm.housed h.housed
  sound :=
    hm.each (fun hx hj => .unused (hx.unused hj)) (fun hS hm => hS.step hm) h.housed h.sound
  linked := h.linked.step h.housed h.sound hm
  served := h.served.step (hm.duty h.sound h.linked)

/-- So does taking a task from the queue. -/
theorem pop (h : w.Ordered) (q : List Task) : ({ w with ready := q } : Network).Ordered where
  housed := h.housed
  sound := ⟨h.sound.conn, h.sound.other⟩
  linked := h.linked
  served :=
    have hd : Duty w { w with ready := q } := .quiet [] rfl rfl (by simp) rfl
    h.served.step hd

/-- And giving up a call. -/
theorem givenUp (h : w.Ordered) (k : Nat) (x : Call) : (w.givenUp k x).Ordered where
  housed := h.housed.givenUp _ _
  sound := (View.givenUp _ _).each (fun hS hm => hS.step hm) h.sound
  linked := h.linked.givenUp _ _
  served := h.served.step (.givenUp _ _ _)

theorem start : ({} : Network).Ordered where
  housed := by simp [Housed]
  sound := ⟨by simp, by simp⟩
  linked := by simp [Linked]
  served := .start

end Ordered

/-- All of it holds along every path. -/
theorem Path.ordered (h : Path {} w) : w.Ordered :=
  h.keeps (fun hv hm => hv.move hm) (fun q hv => hv.pop q) (fun hv _ _ _ => hv.givenUp _ _) .start

/-- Requests, runs and replies fit together in every network that any use leads to. -/
theorem Reachable.served (h : Reachable w) : w.Served := h.path.ordered.served

end Network

/-! ## Where a reply comes from -/

/-- The request that an event refuses, or gives a run. -/
def Event.taken? (c : Nat) : Event → Option Message
  | .unserved d id method params => if d = c then some (.request id method params) else none
  | .spawned _ d m => if d = c ∧ m.isRequest = true then some m else none
  | _ => none

namespace Journal

variable {c k r : Nat} {j : Journal} {m : Message} {id : Id}

/-- What was taken up or refused is a filter of the journal, oldest first. -/
theorem taken_eq (c : Nat) (j : Journal) : j.taken c = (j.filterMap (Event.taken? c)).reverse := by
  induction j with
  | nil => rfl
  | cons e j ih =>
    cases e with
    | unserved d id method params =>
      by_cases h : d = c <;> simp [taken, Event.taken?, h, ih]
    | spawned n d m =>
      by_cases h : d = c ∧ m.isRequest = true <;> simp [taken, Event.taken?, h, ih]
    | _ => exact ih

/-- An event that takes a request has it among the taken ones. -/
theorem mem_taken {e : Event} (he : e ∈ j) (h : e.taken? c = some m) : m ∈ j.taken c := by
  rw [taken_eq, List.mem_reverse]
  exact List.mem_filterMap.mpr ⟨e, he, h⟩

/-- An event that finishes a run has its outcome among the endings. -/
theorem mem_endings {id : Option Id} {o : Except Failure Json} (h : .finished r c id o ∈ j) :
    (c, id, o) ∈ j.endings r := by
  induction j with
  | nil => exact absurd h List.not_mem_nil
  | cons e j ih =>
    rcases List.mem_cons.mp h with rfl | hm
    · rw [endings, if_pos rfl]
      exact List.mem_append_right _ List.mem_cons_self
    · have hj := ih hm
      cases e with
      | finished n d i o' =>
        rw [endings]
        split
        · exact List.mem_append_left _ hj
        · exact hj
      | _ => exact hj

/-- What counts as spawned was written down as spawned. -/
theorem spawned_of_mem_spawns (h : (c, m) ∈ j.spawns r) : .spawned r c m ∈ j := by
  induction j with
  | nil => exact absurd h List.not_mem_nil
  | cons e j ih =>
    cases e with
    | spawned n d m' =>
      rw [spawns] at h
      split at h
      · next hn =>
        rcases List.mem_append.mp h with h | h
        · exact List.mem_cons_of_mem _ (ih h)
        · obtain ⟨rfl, rfl⟩ := Prod.mk.inj (List.mem_singleton.mp h)
          rw [hn]
          exact List.mem_cons_self
      · exact List.mem_cons_of_mem _ (ih h)
    | _ => exact List.mem_cons_of_mem _ (ih h)

end Journal

/-- Whether a run serves a request that came in over a connection. -/
structure Run.Serves (y : Run) (d : Nat) (id : Id) (method : String) (params : Json) : Prop where
  conn : y.conn = d
  message : y.message = .request id method params

/-- A run that serves a request has its identifier, and its params. -/
theorem Run.Serves.id_params {y : Run} {d : Nat} {id : Id} {method : String} {params : Json}
    (h : y.Serves d id method params) : y.id = some id ∧ y.params = params := by
  have hm := h.message
  cases hi : y.id with
  | none =>
    rw [Run.message_of_none hi] at hm
    cases hm
  | some id' =>
    rw [Run.message_of_some hi] at hm
    obtain ⟨rfl, -, rfl⟩ := Message.request.inj hm
    exact ⟨rfl, rfl⟩

/-- A reply has the outcome that it carries. -/
theorem Reply.outcome_carrying (id : Id) (outcome : Except Failure Json) :
    (Reply.carrying id outcome).outcome = outcome := by
  cases outcome <;> rfl

/-- A reply has the id that it carries. -/
theorem Reply.id_carrying (id : Id) (outcome : Except Failure Json) :
    (Reply.carrying id outcome).id = id := by
  cases outcome <;> rfl

namespace Network

variable {w : Network} {d : Nat} {id : Id} {method : String} {params : Json}

/-- A run that serves a request began with it. -/
theorem Reachable.spawned (h : Reachable w) {r : Nat} {y : Run} (hy : w.runs[r]? = some y)
    (hm : y.Serves d id method params) :
    .spawned r d (.request id method params) ∈ w.journal := by
  refine Journal.spawned_of_mem_spawns ?_
  rw [h.served.begun r, hy, Option.map_some, hm.conn, hm.message]
  exact List.mem_singleton.mpr rfl

/-- What is made of a request is made of one that came in. -/
theorem Reachable.mem_received (h : Reachable w) {e : Event} (he : e ∈ w.journal)
    (hm : e.taken? d = some (.request id method params)) :
    .request id method params ∈ w.journal.received d := by
  have ht := Journal.mem_taken he hm
  rw [← h.served.taken d] at ht
  exact (List.mem_filter.mp ht).1

/-- The request of a run is taken up in the event that spawns it. -/
theorem taken?_spawned (r d : Nat) (id : Id) (method : String) (params : Json) :
    (Event.spawned r d (.request id method params)).taken? d =
      some (.request id method params) :=
  if_pos ⟨rfl, rfl⟩

/-- **Every reply answers a request** that came in over its connection: it says that there is no
such method, or it carries what a run that served the request has ended with. -/
theorem Reachable.origin (h : Reachable w) {a : Reply} (ha : a ∈ w.journal.replies d) :
    ∃ method params, .request a.id method params ∈ w.journal.received d ∧
      ∃ outcome, ((.unserved d a.id method params ∈ w.journal ∧
          outcome = .error ⟨.methodNotFound, "No such method " ++ method, none⟩) ∨
        ∃ y ∈ w.runs, y.Serves d a.id method params ∧ y.stage = .finished outcome) ∧
      a = .carrying a.id outcome := by
  rw [h.served.replies d] at ha
  cases Journal.origin_of_mem_due ha with
  -- Refused by the dispatch loop, since nobody serves the method.
  | @refused id method params hu =>
    exact ⟨method, params, h.mem_received hu (if_pos rfl), _, .inl ⟨hu, rfl⟩, rfl⟩
  -- Served: the journal names the run, and the run has the outcome that the journal gives it.
  | @served r id outcome hf =>
    have hend := Journal.mem_endings hf
    rw [h.served.ended r, Option.mem_toList, Option.bind_eq_some_iff] at hend
    obtain ⟨y, hy, hend⟩ := hend
    obtain ⟨o, ho, he⟩ := Option.map_eq_some_iff.mp hend
    obtain ⟨hconn, he⟩ := Prod.mk.inj he
    obtain ⟨hid, rfl⟩ := Prod.mk.inj he
    have hs : y.stage = .finished o := by
      rw [Run.outcome?] at ho
      split at ho
      · next o' hs =>
        rw [hs, Option.some.inj ho]
      · cases ho
    have hserves : y.Serves d id y.method y.params := ⟨hconn, Run.message_of_some hid⟩
    have hreceived := h.mem_received (h.spawned hy hserves) (taken?_spawned r d id _ _)
    rw [Reply.id_carrying]
    exact ⟨y.method, y.params, hreceived, o,
      .inr ⟨y, List.mem_of_getElem? hy, hserves, hs⟩, rfl⟩

end Network

end Parley

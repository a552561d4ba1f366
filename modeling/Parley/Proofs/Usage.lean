import Parley.Error
import Parley.Peer.Link
import Parley.Proofs.Numbering

/-!
# Links in use

A link is used by many at once, in an order that nobody foresees. What was done with it is written
down in that order, with what came of it; where the link stands then follows from what is written
down.

- `Link.Use`, `Link.Result`, `Link.use`: what may be done with a link, and what comes of it.
- `Link.Does`, `Link.does_use`: all that a use may do.
- `Link.run`, `Link.log`: uses one after the other, and what is written down about them.
- `Log.accepted`, `Log.started`, `Log.closings`, `Log.taken`, `Log.Awaits`: what a log tells.
- `Link.Kept`: how a link stands to its log, however it was used.
-/

namespace Parley.Link

/-! ## Uses -/

/-- What may be done with a link. -/
inductive Use where
  | send (m : Message)
  | notify (method : String) (params : Json)
  /-- Starts a request; somebody waits for the reply. -/
  | start (waiter : Nat) (method : String) (params : Json)
  /-- A reply has come in. -/
  | complete (r : Reply)
  /-- Nobody waits for the reply any more. -/
  | forget (id : Id)
  | close (flush : Bool)
  /-- The next entry of the queue is taken out, to be written. -/
  | take
  deriving DecidableEq, Repr

/-- What comes of a use that is not refused. -/
inductive Result where
  | queued
  | started (id : Id)
  /-- Who waited for the reply, if somebody did. -/
  | removed (waiter : Option Nat)
  /-- So many requests failed. -/
  | failed (n : Nat)
  | taken (o : Option Outbound)
  deriving DecidableEq, Repr

namespace Use

/-- The message that is to be sent as it is. -/
def message? : Use → Option Message
  | .send m => some m
  | .notify method params => some (.notification method params)
  | _ => none

/-- The request that is to be sent under an identifier. -/
def request? (id : Id) : Use → Option Message
  | .start _ method params => some (.request id method params)
  | _ => none

/-- The request that does not wait for a reply any more. -/
def removed? : Use → Option Id
  | .complete r => some r.id
  | .forget id => some id
  | _ => none

/-- Whether what is queued is still to be written, for a use that closes the link. -/
def closing? : Use → Option Bool
  | .close flush => some flush
  | _ => none

/-- Whether there is something to be sent. -/
def isOffer : Use → Bool
  | .send _ | .notify .. | .start .. => true
  | _ => false

/-- Whether a request does not wait for its reply after this. -/
def settles (id : Id) : Use → Bool
  | .complete r => r.id = id
  | .forget i => i = id
  | .close _ => true
  | _ => false

variable {u : Use}

/-- A use with a message offers it. -/
theorem isOffer_of_message {m : Message} (h : u.message? = some m) : u.isOffer = true := by
  cases u <;> first | rfl | cases h

/-- Whoever offers does not close. -/
theorem closing?_of_isOffer (h : u.isOffer = true) : u.closing? = none := by
  cases u <;> first | rfl | cases h

/-- Whoever offers settles nothing. -/
theorem settles_of_isOffer (h : u.isOffer = true) (id : Id) : u.settles id = false := by
  cases u <;> first | rfl | cases h

/-- Whoever removes an entry does not close. -/
theorem closing?_of_removed {id : Id} (h : u.removed? = some id) : u.closing? = none := by
  cases u <;> first | rfl | cases h

/-- A use that removes an entry settles that request only. -/
theorem settles_of_removed {i : Id} (h : u.removed? = some i) (id : Id) :
    u.settles id = decide (i = id) := by
  cases u <;> first | (cases h; rfl) | cases h

end Use

variable {l l' : Link} {u : Use} {r : Except CallError Result}

/-- Sends a message as it is. -/
def offer (l : Link) (m : Message) : Except CallError Result × Link :=
  match l.send m with
  | some l => (.ok .queued, l)
  | none => (.error .notConnected, l)

/-- Takes a request out of the table, if it is there. -/
def remove (l : Link) (id : Id) : Except CallError Result × Link :=
  match l.answer id with
  | some (waiter, l) => (.ok (.removed (some waiter)), l)
  | none => (.ok (.removed none), l)

/-- What comes of a use, and the link after it. -/
def use (l : Link) : Use → Except CallError Result × Link
  | .send m => l.offer m
  | .notify method params => l.offer (.notification method params)
  | .start waiter method params =>
    match l.start waiter method params with
    | some (id, l) => (.ok (.started id), l)
    | none => (.error .notConnected, l)
  | .complete r => l.remove r.id
  | .forget id => l.remove id
  | .close flush => (.ok (.failed l.waiters.length), l.close flush)
  | .take =>
    match l.pop with
    | some (o, l) => (.ok (.taken (some o)), l)
    | none => (.ok (.taken none), l)

/-- All that a use may do. -/
inductive Does (l : Link) : Use → Except CallError Result → Link → Prop where
  | queued {u : Use} {m : Message} (ho : l.isOpen = true) (hu : u.message? = some m) :
      Does l u (.ok .queued) { l with queue := l.queue ++ [.message m] }
  | started (ho : l.isOpen = true) (waiter : Nat) (method : String) (params : Json) :
      Does l (.start waiter method params) (.ok (.started l.counter.next.1)) { l with
        counter := l.counter.next.2
        pending := without l.counter.next.1 l.pending ++ [(l.counter.next.1, waiter)]
        queue := l.queue ++ [.message (.request l.counter.next.1 method params)] }
  | refused {u : Use} (ho : l.isOpen = false) (hu : u.isOffer = true) :
      Does l u (.error .notConnected) l
  | removed {u : Use} {id : Id} (hu : u.removed? = some id) :
      Does l u (.ok (.removed (l.pending.lookup id)))
        { l with pending := without id l.pending }
  | closed (flush : Bool) : Does l (.close flush) (.ok (.failed l.pending.length)) (l.close flush)
  | taken {o : Outbound} {q : List Outbound} (hq : l.queue = o :: q) :
      Does l .take (.ok (.taken (some o))) { l with queue := q }
  | starved (hq : l.queue = []) : Does l .take (.ok (.taken none)) l

/-- Nothing is lost by taking out what is not there. -/
theorem without_of_lookup {id : Id} {pending : List (Id × Nat)} (h : pending.lookup id = none) :
    without id pending = pending := by
  rw [List.lookup_eq_none_iff] at h
  refine List.filter_eq_self.mpr fun p hp => ?_
  rw [bne, BEq.comm]
  simpa using h p hp

/-- An offer is queued by an open link and refused by a closed one. -/
theorem does_offer {m : Message} (hu : u.message? = some m) (ho : u.isOffer = true) :
    Does l u (l.offer m).1 (l.offer m).2 := by
  cases hl : l.isOpen with
  | true => simpa [offer, send, hl] using Does.queued hl hu
  | false => simpa [offer, send, hl] using Does.refused hl ho

/-- A removal takes the entry out, if it is there. -/
theorem does_remove {id : Id} (hu : u.removed? = some id) :
    Does l u (l.remove id).1 (l.remove id).2 := by
  have h : Does l u _ _ := .removed hu
  cases hk : l.pending.lookup id with
  | some k => simpa [remove, answer, hk] using h
  | none => simpa [remove, answer, hk, without_of_lookup hk] using h

/-- A use does nothing else. -/
theorem does_use (l : Link) (u : Use) : Does l u (l.use u).1 (l.use u).2 := by
  cases u with
  | send m => exact does_offer rfl rfl
  | notify method params => exact does_offer rfl rfl
  | start waiter method params =>
    cases hl : l.isOpen with
    | true => simpa [use, start, hl] using Does.started hl waiter method params
    | false => simpa [use, start, hl] using Does.refused hl rfl
  | complete r => exact does_remove rfl
  | forget id => exact does_remove rfl
  | close flush =>
    have h : Does l _ _ _ := .closed flush
    simpa [use, waiters] using h
  | take =>
    cases hq : l.queue with
    | nil => simpa [use, pop, hq] using Does.starved hq
    | cons o q => simpa [use, pop, hq] using Does.taken hq

/-! ## Logs -/

/-- What was done with a link, with what came of it, in order. -/
abbrev Log := List (Use × Except CallError Result)

namespace Log

variable {h : Log} {e : Use × Except CallError Result}

/-- The message that was accepted here. -/
def accepted? (e : Use × Except CallError Result) : Option Message :=
  match e.2 with
  | .ok .queued => e.1.message?
  | .ok (.started id) => e.1.request? id
  | _ => none

/-- The identifier of the request that was started here. -/
def started? (e : Use × Except CallError Result) : Option Id :=
  match e.2 with
  | .ok (.started id) => some id
  | _ => none

/-- The entry that was taken out of the queue here. -/
def taken? (e : Use × Except CallError Result) : Option Outbound :=
  match e.2 with
  | .ok (.taken o) => o
  | _ => none

/-- The messages that were accepted. -/
def accepted (h : Log) : List Message := h.filterMap accepted?

/-- The identifiers of the requests that were started. -/
def started (h : Log) : List Id := h.filterMap started?

/-- How the link was closed, each time. -/
def closings (h : Log) : List Bool := h.filterMap fun e => e.1.closing?

/-- What was taken out of the queue. -/
def taken (h : Log) : List Outbound := h.filterMap taken?

/-- The end mark that the first closing puts into the queue, if what is queued is to be written. -/
def endMark (h : Log) : List Outbound := if h.closings.head? = some true then [.close] else []

/-- What is appended at the end is filtered last. -/
theorem filterMap_concat {α β : Type} (f : α → Option β) (xs : List α) (x : α) :
    (xs ++ [x]).filterMap f = xs.filterMap f ++ (f x).toList := by
  cases hf : f x <;> simp [hf]

/-- Another event of the log adds the message that it accepted, if any. -/
@[simp] theorem accepted_concat : (h ++ [e]).accepted = h.accepted ++ (accepted? e).toList :=
  filterMap_concat ..

/-- It adds the request that it started, if any. -/
@[simp] theorem started_concat : (h ++ [e]).started = h.started ++ (started? e).toList :=
  filterMap_concat ..

/-- It adds the closing that it is, if it is one. -/
@[simp] theorem closings_concat : (h ++ [e]).closings = h.closings ++ e.1.closing?.toList :=
  filterMap_concat ..

/-- It adds the message that was taken, if any. -/
@[simp] theorem taken_concat : (h ++ [e]).taken = h.taken ++ (taken? e).toList :=
  filterMap_concat ..

/-- The end mark does not depend on what is no closing. -/
theorem endMark_concat (he : e.1.closing? = none) : (h ++ [e]).endMark = h.endMark := by
  simp [endMark, he]

/-- Only the first closing counts. -/
theorem endMark_concat_of_closed (hc : h.closings ≠ []) : (h ++ [e]).endMark = h.endMark := by
  simp [endMark, hc]

/-- A request was started for somebody, and nothing has settled it since. -/
def Awaits (h : Log) (id : Id) (waiter : Nat) : Prop :=
  ∃ (before during : Log) (method : String) (params : Json),
    h = before ++ (.start waiter method params, .ok (.started id)) :: during ∧
    ∀ e ∈ during, e.1.settles id = false

/-- At first nobody waits. -/
theorem not_awaits_nil (id : Id) (waiter : Nat) : ¬ Awaits [] id waiter := by
  rintro ⟨before, during, method, params, h, -⟩
  exact absurd h (by simp)

/-- What is awaited after one more entry: what starts there, and what it does not settle. -/
theorem awaits_concat {id : Id} {waiter : Nat} : Awaits (h ++ [e]) id waiter ↔
    (∃ method params, e = (.start waiter method params, .ok (.started id))) ∨
      (h.Awaits id waiter ∧ e.1.settles id = false) := by
  constructor
  · rintro ⟨before, during, method, params, hh, hd⟩
    rcases during.eq_nil_or_concat with rfl | ⟨during, e', rfl⟩
    · obtain ⟨-, he⟩ := List.append_inj' hh rfl
      exact .inl ⟨method, params, List.singleton_inj.mp he⟩
    · rw [List.concat_eq_append] at hh hd
      rw [← List.cons_append, ← List.append_assoc] at hh
      obtain ⟨hbefore, hlast⟩ := List.append_inj' hh rfl
      obtain rfl := List.singleton_inj.mp hlast
      obtain ⟨hd, he⟩ := List.forall_mem_append.mp hd
      exact .inr ⟨⟨before, during, method, params, hbefore, hd⟩, he e (List.mem_singleton.mpr rfl)⟩
  · rintro (⟨method, params, rfl⟩ | ⟨⟨before, during, method, params, rfl, hd⟩, he⟩)
    · exact ⟨h, [], method, params, rfl, fun _ hm => absurd hm List.not_mem_nil⟩
    · refine ⟨before, during ++ [e], method, params, by simp, ?_⟩
      intro e' hm
      rcases List.mem_append.mp hm with hm | hm
      · exact hd e' hm
      · rwa [List.mem_singleton.mp hm]

end Log

/-! ## Runs -/

/-- A link that was not used yet, with the place where its numbers begin. -/
def fresh (c : Counter) : Link := { counter := c }

/-- The link after uses. -/
def run (l : Link) (uses : List Use) : Link := uses.foldl (fun l u => (l.use u).2) l

/-- What is written down about uses. -/
def log (l : Link) : List Use → Log
  | [] => []
  | u :: uses => (u, (l.use u).1) :: log (l.use u).2 uses

/-- A link that is used in two rows is used in one. -/
theorem run_append (l : Link) (us vs : List Use) : l.run (us ++ vs) = (l.run us).run vs :=
  List.foldl_append ..

/-- And the log of the one is the two logs in a row. -/
theorem log_append (l : Link) (us vs : List Use) :
    l.log (us ++ vs) = l.log us ++ (l.run us).log vs := by
  induction us generalizing l with
  | nil => rfl
  | cons u us ih => exact congrArg (_ :: ·) (ih _)

/-! ## How a link stands to its log -/

/-- How a link stands to the log of its uses since it was fresh. -/
structure Kept (c : Counter) (h : Log) (l : Link) : Prop where
  /-- All that was ever queued. -/
  queue : h.taken ++ l.queue = h.accepted.map .message ++ h.endMark
  isOpen : l.isOpen = true ↔ h.closings = []
  counter : l.counter = c.after h.started.length
  ids : h.started = (List.range h.started.length).map c.nth
  closed : l.isOpen = false → l.pending = []
  awaits : ∀ {id waiter}, (id, waiter) ∈ l.pending → h.Awaits id waiter
  apart : (l.pending.map Prod.fst).Nodup

variable {c : Counter} {h : Log}

namespace Kept

/-- As long as a link is open, no mark of its end is in the queue. -/
theorem endMark_of_open (hK : Kept c h l) (ho : l.isOpen = true) : h.endMark = [] := by
  simp [Log.endMark, hK.isOpen.mp ho]

/-- A link is closed by somebody. -/
theorem closings_of_closed (hK : Kept c h l) (ho : l.isOpen = false) : h.closings ≠ [] := by
  intro hc
  rw [hK.isOpen.mpr hc] at ho
  cases ho

/-- What was taken and what is queued are together what was accepted and, behind it, the mark of the
end: every use keeps it so. -/
theorem queue_step (hK : Kept c h l) (hd : Does l u r l') :
    Log.taken (h ++ [(u, r)]) ++ l'.queue =
      (Log.accepted (h ++ [(u, r)])).map .message ++ Log.endMark (h ++ [(u, r)]) := by
  -- An open link has no mark yet, so what it accepts stands at the very end.
  cases hd with
  | queued ho hu =>
    have hq := hK.queue
    rw [hK.endMark_of_open ho, List.append_nil] at hq
    rw [Log.endMark_concat (Use.closing?_of_isOffer (Use.isOffer_of_message hu)),
      hK.endMark_of_open ho]
    simp [Log.accepted?, Log.taken?, hu, ← List.append_assoc, hq]
  | started ho waiter method params =>
    have hq := hK.queue
    rw [hK.endMark_of_open ho, List.append_nil] at hq
    rw [Log.endMark_concat rfl, hK.endMark_of_open ho]
    simp [Log.accepted?, Log.taken?, Use.request?, ← List.append_assoc, hq]
  | refused ho hu =>
    rw [Log.endMark_concat (Use.closing?_of_isOffer hu)]
    simp [Log.accepted?, Log.taken?, hK.queue]
  | removed hu =>
    rw [Log.endMark_concat (Use.closing?_of_removed hu)]
    simp [Log.accepted?, Log.taken?, hK.queue]
  -- The first closing puts the mark, behind all that was accepted; a later one finds a closed link.
  | closed flush =>
    cases ho : l.isOpen with
    | true =>
      have hq := hK.queue
      rw [hK.endMark_of_open ho, List.append_nil] at hq
      cases flush <;>
        simp [Log.accepted?, Log.taken?, Log.endMark, Use.closing?, close, ho, hK.isOpen.mp ho,
          ← List.append_assoc, hq]
    | false =>
      rw [Log.endMark_concat_of_closed (hK.closings_of_closed ho)]
      simp [Log.accepted?, Log.taken?, close, ho, hK.queue]
  | taken hq =>
    rw [Log.endMark_concat rfl]
    simp [Log.accepted?, Log.taken?, ← hK.queue, hq]
  | starved hq =>
    rw [Log.endMark_concat rfl]
    simp [Log.accepted?, Log.taken?, ← hK.queue, hq]

/-- A link is open as long as nobody has closed it. -/
theorem isOpen_step (hK : Kept c h l) (hd : Does l u r l') :
    l'.isOpen = true ↔ Log.closings (h ++ [(u, r)]) = [] := by
  cases hd with
  | queued ho hu =>
    simp [Use.closing?_of_isOffer (Use.isOffer_of_message hu), hK.isOpen]
  | refused ho hu => simp [Use.closing?_of_isOffer hu, hK.isOpen]
  | removed hu => simp [Use.closing?_of_removed hu, hK.isOpen]
  | closed flush => simp [Use.closing?, close]
  | started | taken | starved => simp [Use.closing?, hK.isOpen]

/-- The counter goes on with each request that is started, which has the next identifier. -/
theorem counter_step (hK : Kept c h l) (hd : Does l u r l') :
    l'.counter = c.after (Log.started (h ++ [(u, r)])).length ∧
      Log.started (h ++ [(u, r)]) =
        (List.range (Log.started (h ++ [(u, r)])).length).map c.nth := by
  cases hd with
  | started ho waiter method params =>
    simp only [Log.started_concat, Log.started?, Option.toList, List.length_append,
      List.length_singleton, List.range_succ, List.map_append, List.map_singleton]
    rw [Counter.after_succ, ← hK.counter, ← hK.ids, Counter.nth, ← hK.counter]
    exact ⟨rfl, rfl⟩
  | queued | refused | removed | closed | taken | starved =>
    simpa [Log.started?, close] using ⟨hK.counter, hK.ids⟩

/-- Whoever closes a link resolves everybody who waits. -/
theorem closed_step (hK : Kept c h l) (hd : Does l u r l') (ho' : l'.isOpen = false) :
    l'.pending = [] := by
  cases hd with
  | queued ho | started ho => exact absurd (ho.symm.trans ho') (by simp)
  | refused | taken | starved => exact hK.closed ho'
  | removed => simp [hK.closed ho', without]
  | closed => rfl

/-- Whoever waits after a use waited before it or began with it. -/
theorem awaits_step (hK : Kept c h l) (hd : Does l u r l') {id : Id} {waiter : Nat}
    (hm : (id, waiter) ∈ l'.pending) : Log.Awaits (h ++ [(u, r)]) id waiter := by
  rw [Log.awaits_concat]
  cases hd with
  | queued ho hu =>
    exact .inr ⟨hK.awaits hm, Use.settles_of_isOffer (Use.isOffer_of_message hu) id⟩
  | started ho waiter method params =>
    rcases List.mem_append.mp hm with hm | hm
    · exact .inr ⟨hK.awaits (List.mem_filter.mp hm).1, rfl⟩
    · obtain ⟨rfl, rfl⟩ := Prod.mk.inj (List.mem_singleton.mp hm)
      exact .inl ⟨method, params, rfl⟩
  | refused ho hu => exact .inr ⟨hK.awaits hm, Use.settles_of_isOffer hu id⟩
  | removed hu =>
    obtain ⟨hm, hne⟩ := List.mem_filter.mp hm
    rw [Use.settles_of_removed hu]
    exact .inr ⟨hK.awaits hm, decide_eq_false fun he => by simp [he] at hne⟩
  | closed => exact absurd hm List.not_mem_nil
  | taken | starved => exact .inr ⟨hK.awaits hm, rfl⟩

/-- No id waits twice. -/
theorem apart_step (hK : Kept c h l) (hd : Does l u r l') :
    (l'.pending.map Prod.fst).Nodup := by
  have hsub (id : Id) : ((without id l.pending).map Prod.fst).Nodup :=
    hK.apart.sublist (List.filter_sublist.map Prod.fst)
  cases hd with
  | started ho waiter method params =>
    rw [List.map_append, List.nodup_append]
    refine ⟨hsub _, by simp, ?_⟩
    simp [without]
  | removed => exact hsub _
  | closed => exact List.nodup_nil
  | queued | refused | taken | starved => exact hK.apart

/-- What one use keeps. -/
theorem step (hK : Kept c h l) (hd : Does l u r l') : Kept c (h ++ [(u, r)]) l' where
  queue := hK.queue_step hd
  isOpen := hK.isOpen_step hd
  counter := (hK.counter_step hd).1
  ids := (hK.counter_step hd).2
  closed := hK.closed_step hd
  awaits := hK.awaits_step hd
  apart := hK.apart_step hd

/-- A fresh link has everything in order. -/
theorem fresh (c : Counter) : Kept c [] (fresh c) where
  queue := rfl
  isOpen := by simp [Link.fresh, Log.closings]
  counter := by simp [Link.fresh, Log.started]
  ids := rfl
  closed := fun ho => by cases ho
  awaits := fun hm => absurd hm List.not_mem_nil
  apart := List.nodup_nil

/-- **What all uses keep**, whatever they are and in whatever order they come. -/
theorem run (hK : Kept c h l) (uses : List Use) : Kept c (h ++ l.log uses) (l.run uses) := by
  induction uses generalizing h l with
  | nil => rwa [log, List.append_nil]
  | cons u uses ih =>
    rw [log, List.append_cons]
    exact ih (hK.step (does_use l u))

end Kept

end Parley.Link

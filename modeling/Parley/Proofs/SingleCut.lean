import Mathlib.Data.List.Nodup
import Parley.Proofs.Requests
import Parley.Proofs.Spacing

/-!
# The single cut of a link

The flag, the table, the counter and the queue of a link change as one, so that closing it is one
cut through all of them. What was accepted before is queued, and nothing else, in front of the end
mark if there is one; nobody waits any more; and what is refused later leaves no trace. Whoever
writes takes from the queue for as long as the link is open, so that nothing else is refused.

- `Link.requestIds`: the identifiers of the requests in a queue.
- `Log.handed`: the identifiers of requests that came as messages, and not to be started.
- `Link.count_requestIds`: every other request in the queue was started.
- `Link.use_refused`: what is refused, and that nothing is left of it.
- `Link.cuts_cleanly`: **the whole**.
-/

namespace Parley.Link

/-! ## The requests in the queue -/

/-- The identifier of a request that is queued. -/
def queuedId? : Outbound → Option Id
  | .message m => m.requestId?
  | .close => none

/-- The identifiers of the requests that are queued. -/
def requestIds (q : List Outbound) : List Id := q.filterMap queuedId?

namespace Log

/-- The identifier of a request that was handed in as a message. -/
def handed? (e : Use × Except CallError Result) : Option Id :=
  match e.2 with
  | .ok .queued => e.1.message?.bind Message.requestId?
  | _ => none

/-- The identifiers of the requests that were handed in as messages. -/
def handed (h : Log) : List Id := h.filterMap handed?

/-- The identifiers of the requests that were accepted. -/
def requestIds (h : Log) : List Id := h.accepted.filterMap Message.requestId?

variable {h : Log} {e : Use × Except CallError Result}

@[simp] theorem handed_concat : (h ++ [e]).handed = h.handed ++ (handed? e).toList :=
  filterMap_concat ..

@[simp] theorem requestIds_concat :
    (h ++ [e]).requestIds = h.requestIds ++ ((accepted? e).bind Message.requestId?).toList := by
  rw [requestIds, accepted_concat, List.filterMap_append, requestIds]
  cases ha : accepted? e with
  | none => rfl
  | some m => exact congrArg _ (filterMap_concat Message.requestId? [] m)

end Log

variable {c : Counter} {h : Log} {l l' : Link} {u : Use} {r : Except CallError Result}
  {uses : List Use}

/-- A request is accepted because it was started or because it was handed in. -/
theorem Does.count_requestIds (hd : Does l u r l') (id : Id) :
    ((Log.accepted? (u, r)).bind Message.requestId?).toList.count id =
      (Log.started? (u, r)).toList.count id + (Log.handed? (u, r)).toList.count id := by
  cases hd <;> simp [Log.accepted?, Log.started?, Log.handed?, Use.request?, Message.requestId?]

theorem count_requestIds (uses : List Use) (id : Id) :
    ((fresh c).log uses).requestIds.count id =
      ((fresh c).log uses).started.count id + ((fresh c).log uses).handed.count id := by
  induction uses using List.reverseRecOn with
  | nil => rfl
  | append_singleton us u ih =>
    have hd := (does_use ((fresh c).run us) u).count_requestIds id
    rw [log_append, log, log]
    simp only [Log.requestIds_concat, Log.started_concat, Log.handed_concat, List.count_append]
    omega

/-- The requests that were ever queued are those that were accepted. -/
theorem Kept.requestIds (hK : Kept c h l) : requestIds (h.taken ++ l.queue) = h.requestIds := by
  have hend : Link.requestIds h.endMark = [] := by
    unfold Log.endMark
    split <;> rfl
  rw [hK.queue, Link.requestIds, List.filterMap_append, ← Link.requestIds, ← Link.requestIds, hend,
    List.append_nil, Link.requestIds, List.filterMap_map]
  rfl

/-- Requests that wait were started, all under identifiers of their own. -/
theorem Kept.count_started (hK : Kept c h l) (hn : h.started.length < 2 ^ 64) {id : Id}
    {waiter : Nat} (ha : h.Awaits id waiter) : h.started.count id = 1 := by
  have hnodup : h.started.Nodup := by
    rw [hK.ids]
    exact c.nodup_nth (Nat.le_of_lt hn)
  refine List.count_eq_one_of_mem hnodup ?_
  obtain ⟨before, during, method, params, rfl, -⟩ := ha
  rw [Log.started_split]
  simp

theorem log_map_fst (l : Link) (uses : List Use) : (l.log uses).map Prod.fst = uses := by
  induction uses generalizing l with
  | nil => rfl
  | cons u uses ih => exact congrArg (u :: ·) (ih _)

/-- If no message that is handed in is a request, none of the requests is. -/
theorem handed_eq_nil (hm : ∀ m, .send m ∈ uses → m.isRequest = false) :
    (l.log uses).handed = [] := by
  refine List.filterMap_eq_nil_iff.mpr fun e he => ?_
  have hu : e.1 ∈ uses := by
    rw [← log_map_fst l uses]
    exact List.mem_map_of_mem he
  unfold Log.handed?
  split
  · cases hv : e.1 with
    | send m =>
      have hnot := hm m (hv ▸ hu)
      cases m <;> first | rfl | cases hnot
    | _ => rfl
  · rfl

/-! ## What is refused -/

/-- Only a closed link refuses, and only what is to be sent. -/
theorem use_error {e : CallError} (he : (l.use u).1 = .error e) :
    e = .notConnected ∧ l.isOpen = false ∧ u.isOffer = true ∧ (l.use u).2 = l := by
  have hd := does_use l u
  rw [he] at hd
  generalize hv : (l.use u).2 = v at hd
  cases hd with
  | refused ho hu => exact ⟨rfl, ho, hu, rfl⟩

/-- A closed link refuses all that is to be sent. -/
theorem use_refused (ho : l.isOpen = false) (hu : u.isOffer = true) :
    l.use u = (.error .notConnected, l) := by
  cases u with
  | send | notify => simp [use, offer, send, ho]
  | start => simp [use, start, ho]
  | complete | forget | close | take => cases hu

/-! ## The cut -/

/-- A closed link stays closed, and nobody waits for anything. -/
theorem run_of_closed (ho : ((fresh c).run uses).isOpen = false) (more : List Use) :
    (((fresh c).run uses).run more).isOpen = false ∧
      (((fresh c).run uses).run more).pending = [] := by
  have hK := (kept_run c uses).run more
  have hclosed : (((fresh c).run uses).run more).isOpen = false := by
    rw [Bool.eq_false_iff, Ne, hK.isOpen, Log.closings, List.filterMap_append, ← Log.closings]
    intro hnil
    exact (kept_run c uses).closings_of_closed ho (List.append_eq_nil_iff.mp hnil).1
  exact ⟨hclosed, hK.closed hclosed⟩

theorem use_close (l : Link) (flush : Bool) :
    l.use (.close flush) = (.ok (.failed l.pending.length), l.close flush) := by
  rw [use, waiters, List.length_map]

theorem use_close_close (l : Link) (flush again : Bool) :
    (l.close flush).use (.close again) = (.ok (.failed 0), l.close flush) := by
  rw [use_close]
  simp [close]

/-- **The single cut of a link.** However a link is used, as long as fewer than `2 ^ 64` requests
are started: all that was ever queued are the messages that were accepted, in order, with one end
mark behind them if and only if the first closing was one with a flush. The link is open until it is
closed for the first time; then it stays closed, and nobody waits any more. The table holds the
requests that were started and neither answered nor forgotten since, each once, under an identifier
that exactly one request in the queue has, apart from requests that were handed in as messages.
What is refused is what is to be sent after the link was closed, and it changes nothing. Closing
tells how many requests failed, and that is none when it is done again. -/
theorem cuts_cleanly (c : Counter) (uses : List Use)
    (hn : ((fresh c).log uses).started.length < 2 ^ 64) :
    let h := (fresh c).log uses
    let l := (fresh c).run uses
    h.taken ++ l.queue = h.accepted.map .message ++
      (if h.closings.head? = some true then [.close] else []) ∧
    (l.isOpen = true ↔ h.closings = []) ∧
    (l.isOpen = false → ∀ more, (l.run more).isOpen = false ∧ (l.run more).pending = []) ∧
    (∀ id waiter, (id, waiter) ∈ l.pending ↔ h.Awaits id waiter) ∧
    (l.pending.map Prod.fst).Nodup ∧
    (∀ p ∈ l.pending, (requestIds (h.taken ++ l.queue)).count p.1 = 1 + h.handed.count p.1) ∧
    ((∀ m, .send m ∈ uses → m.isRequest = false) → h.handed = []) ∧
    (∀ u e, (l.use u).1 = .error e ↔ e = .notConnected ∧ l.isOpen = false ∧ u.isOffer = true) ∧
    (∀ u e, (l.use u).1 = .error e → (l.use u).2 = l) ∧
    ∀ flush, l.use (.close flush) = (.ok (.failed l.pending.length), l.close flush) ∧
      ∀ again, (l.close flush).use (.close again) = (.ok (.failed 0), l.close flush) := by
  intro h l
  have hK : Kept c h l := kept_run c uses
  have hkept : ∀ {id waiter}, (id, waiter) ∈ l.pending ↔ h.Awaits id waiter :=
    mem_pending_iff (neverDisplaces_of_spaced (.of_length hn))
  refine ⟨hK.queue, hK.isOpen, run_of_closed, fun _ _ => hkept, hK.apart, fun p hp => ?_,
    handed_eq_nil, fun u e => ⟨fun he => ?_, ?_⟩, fun u e he => (use_error he).2.2.2,
    fun flush => ⟨use_close l flush, use_close_close l flush⟩⟩
  · rw [hK.requestIds, count_requestIds, hK.count_started hn (hkept.mp hp)]
  · obtain ⟨he, ho, hu, -⟩ := use_error he
    exact ⟨he, ho, hu⟩
  · rintro ⟨rfl, ho, hu⟩
    rw [use_refused ho hu]

/-- One request is answered and the other one fails when the link is closed with a flush; it is
written all the same, and the notification that comes too late is not. -/
theorem cuts_cleanly_flushed :
    let early : List Use := [.start 7 "a" .null, .start 8 "b" .null, .take,
      .complete (.ok (.number 0) .null)]
    let late : List Use := early ++ [.close true, .notify "n" .null, .close false]
    let l := (fresh .new).run early
    let h := (fresh .new).log late
    h.started.length < 2 ^ 64 ∧
      (requestIds (((fresh .new).log early).taken ++ l.queue)).count (.number 1) = 1 ∧
      l.use (.close true) = (.ok (.failed 1), l.close true) ∧
      ((fresh .new).run late).pending = [] ∧
      h.taken ++ ((fresh .new).run late).queue =
        [.message (.request (.number 0) "a" .null), .message (.request (.number 1) "b" .null),
          .close] := by
  intro early late l h
  have hlate : h.started.length < 2 ^ 64 := by decide
  obtain ⟨-, -, -, -, -, hcount, -, -, -, hclose⟩ := cuts_cleanly .new early (by decide)
  obtain ⟨hqueue, -, hclosed, -⟩ := cuts_cleanly .new late hlate
  refine ⟨hlate, ?_, (hclose true).1, (hclosed (by decide) []).2, ?_⟩
  · exact hcount (.number 1, 8) (by decide)
  · exact hqueue.trans (by decide)

end Parley.Link

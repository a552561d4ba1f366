import Parley.Message.Basic

/-!
# Links

A link is what the outbound side of a connection shares: the queue of what is to be written and the
table of requests that wait for a reply. Both change together, so that closing is one cut: what was
queued before stands before the end mark, and nothing is queued or awaited after it.

- `Link.send`, `Link.start`: queue a message or a request; refused once the link is closed.
- `Link.answer`: takes a request out of the table.
- `Link.close`: closes the link.
- `Link.lookup_without`: a request that was taken out of the table is not there.
- `Link.start_eq_some`, `Link.answer_eq_some`, `Link.pop_eq_some`: what changed when it worked.
-/

namespace Parley

/-- What stands in a queue. -/
inductive Outbound where
  | message (m : Message)
  /-- Everything before this has been written; the stream may be closed. -/
  | close
  deriving DecidableEq, Repr

/-- The outbound side of a connection. Who waits for a reply is known by a number. -/
structure Link where
  isOpen : Bool := true
  /-- The source of identifiers. -/
  counter : Counter := .new
  /-- The requests that wait for a reply, with who waits for it. -/
  pending : List (Id × Nat) := []
  /-- What is to be written, the oldest first. -/
  queue : List Outbound := []
  deriving DecidableEq, Repr

namespace Link

/-- Queues a message. -/
def send (l : Link) (m : Message) : Option Link :=
  if l.isOpen then some { l with queue := l.queue ++ [.message m] } else none

/-- The table without the request under an identifier. -/
def without (id : Id) (pending : List (Id × Nat)) : List (Id × Nat) :=
  pending.filter fun p => p.1 != id

/-- Queues a request under a fresh identifier. -/
def start (l : Link) (waiter : Nat) (method : String) (params : Json) : Option (Id × Link) :=
  if l.isOpen then
    let (id, counter) := l.counter.next
    some (id, { l with
      counter
      pending := without id l.pending ++ [(id, waiter)]
      queue := l.queue ++ [.message (.request id method params)] })
  else none

/-- Takes the request under an identifier out of the table, and tells who waits for it. -/
def answer (l : Link) (id : Id) : Option (Nat × Link) :=
  (l.pending.lookup id).map fun waiter => (waiter, { l with pending := without id l.pending })

/-- Who waits for a reply. -/
def waiters (l : Link) : List Nat := l.pending.map Prod.snd

/-- Closes the link, with an end mark behind what is queued if all of it is to be written. Nobody
waits any more. A second time nothing changes. -/
def close (l : Link) (flush : Bool) : Link :=
  { l with
    isOpen := false
    pending := []
    queue := if l.isOpen && flush then l.queue ++ [.close] else l.queue }

/-- Takes the oldest entry out of the queue. -/
def pop (l : Link) : Option (Outbound × Link) :=
  match l.queue with
  | [] => none
  | o :: rest => some (o, { l with queue := rest })

/-! ## Entries -/

theorem lookup_without (id : Id) (pending : List (Id × Nat)) :
    (without id pending).lookup id = none := by
  rw [List.lookup_eq_none_iff]
  intro p hp
  rw [without, List.mem_filter] at hp
  simpa [bne, BEq.comm] using hp.2

theorem lookup_without_of_ne {id i : Id} (h : i ≠ id) (pending : List (Id × Nat)) :
    (without id pending).lookup i = pending.lookup i := by
  induction pending with
  | nil => rfl
  | cons p pending ih =>
    obtain ⟨k, n⟩ := p
    rw [without] at ih ⊢
    by_cases hk : k = id
    · subst hk
      rw [List.filter_cons_of_neg (by simp), ih, List.lookup_cons, beq_false_of_ne h]
    · rw [List.filter_cons_of_pos (by simp [hk]), List.lookup_cons, List.lookup_cons, ih]

theorem without_without (id : Id) (pending : List (Id × Nat)) :
    without id (without id pending) = without id pending := by
  simp [without, List.filter_filter]

/-! ## What a success says -/

theorem start_eq_some {l l' : Link} {id : Id} {waiter : Nat} {method : String} {params : Json}
    (h : l.start waiter method params = some (id, l')) :
    l.isOpen = true ∧ id = l.counter.next.1 ∧
      l' = { l with
        counter := l.counter.next.2
        pending := without id l.pending ++ [(id, waiter)]
        queue := l.queue ++ [.message (.request id method params)] } := by
  cases ho : l.isOpen with
  | false => simp [start, ho] at h
  | true =>
    simp only [start, ho, ↓reduceIte, Option.some.injEq, Prod.mk.injEq] at h
    obtain ⟨rfl, rfl⟩ := h
    exact ⟨rfl, rfl, rfl⟩

theorem answer_eq_some {l l' : Link} {id : Id} {k : Nat} (h : l.answer id = some (k, l')) :
    l.pending.lookup id = some k ∧ l' = { l with pending := without id l.pending } := by
  obtain ⟨k', hk, he⟩ := Option.map_eq_some_iff.mp h
  obtain ⟨rfl, rfl⟩ := Prod.mk.inj he
  exact ⟨hk, rfl⟩

theorem pop_eq_some {l l' : Link} {o : Outbound} (h : l.pop = some (o, l')) :
    ∃ q, l.queue = o :: q ∧ l' = { l with queue := q } := by
  cases hq : l.queue with
  | nil => simp [pop, hq] at h
  | cons o' q =>
    simp only [pop, hq, Option.some.injEq, Prod.mk.injEq] at h
    obtain ⟨rfl, rfl⟩ := h
    exact ⟨q, rfl, rfl⟩

end Link

end Parley

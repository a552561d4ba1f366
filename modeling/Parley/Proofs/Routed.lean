import Parley.Proofs.Move

/-!
# The handlers that a dispatcher chooses

A dispatcher chooses among what is registered with it, and among that by kind: a request is never
served by a handler for notifications, nor a notification by one for requests.

- `routed_eq_filter`, `chosen_mem`, `chosen_eq_none`: what is chosen is there and applies.
- `Dispatcher.handlersFor_eq`, `Dispatcher.handlerFor_eq`: what is chosen for a message.
- `Dispatcher.Tabled.handlersFor`, `Dispatcher.Tabled.handlerFor`: the kinds of what is chosen.
-/

namespace Parley

section choice

variable {α : Type} {f : α → Selector} {ls : Languages} {params : Json} {xs : List α}

/-- Whether an item applies to the document that params are about. -/
def applies (f : α → Selector) (ls : Languages) (params : Json) (x : α) : Bool :=
  (ls.identify params).any fun d => (f x).accepts d

theorem Selector.best?_eq_none {s : Selector} {d : Document} :
    s.best? d = none ↔ s.accepts d = false := by
  rw [best?, List.max?_eq_none_iff, List.map_eq_nil_iff, List.filter_eq_nil_iff, accepts,
    List.any_eq_false]

/-- What notifications are routed to are the items that apply, in their order. -/
theorem routed_eq_filter (f : α → Selector) (ls : Languages) (params : Json) (xs : List α) :
    routed f ls params xs = xs.filter (applies f ls params) := by
  rw [routed]
  split
  · next hi => exact (List.filter_eq_nil_iff.mpr fun x _ => by simp [applies, hi]).symm
  · next d hi => exact List.filter_congr fun x _ => by simp [applies, hi]

/-- The closest item is the best one so far, or one of those that follow and match. -/
theorem closest_mem {d : Document} {top : Option (Nat × α)} {p : Nat × α}
    (h : closest f d top xs = some p) : top = some p ∨ p.2 ∈ xs ∧ (f p.2).best? d = some p.1 := by
  induction xs generalizing top with
  | nil => exact .inl h
  | cons x xs ih =>
    have later : p.2 ∈ xs ∧ (f p.2).best? d = some p.1 →
        p.2 ∈ x :: xs ∧ (f p.2).best? d = some p.1 := And.imp_left (List.mem_cons_of_mem _)
    rw [closest] at h
    split at h
    · exact (ih h).imp_right later
    · next score hs =>
      have taken : closest f d (some (score, x)) xs = some p →
          p.2 ∈ x :: xs ∧ (f p.2).best? d = some p.1 := fun h => by
        rcases ih h with he | hm
        · obtain rfl := Option.some.inj he
          exact ⟨List.mem_cons_self, hs⟩
        · exact later hm
      split at h
      · exact .inr (taken h)
      · split at h
        · exact .inr (taken h)
        · exact (ih h).imp_right later

/-- There is a closest item if there is a best one so far, or one of those that follow matches. -/
theorem closest_eq_none {d : Document} {top : Option (Nat × α)} :
    closest f d top xs = none ↔ top = none ∧ ∀ x ∈ xs, (f x).best? d = none := by
  induction xs generalizing top with
  | nil => simp [closest]
  | cons x xs ih =>
    rw [closest, List.forall_mem_cons]
    split
    · next hs => rw [ih, hs, eq_self, true_and]
    · next score hs =>
      have matched : ¬(top = none ∧ (f x).best? d = none ∧ ∀ x ∈ xs, (f x).best? d = none) :=
        fun h => by cases hs.symm.trans h.2.1
      rw [iff_false_right matched]
      split
      · exact fun h => by cases (ih.mp h).1
      · split
        · exact fun h => by cases (ih.mp h).1
        · exact fun h => by cases (ih.mp h).1

/-- What is chosen is one of the items that there are, and applies. -/
theorem chosen_mem {x : α} (h : chosen f ls params xs = some x) :
    x ∈ xs ∧ applies f ls params x = true := by
  rw [chosen] at h
  split at h
  · cases h
  · next d hi =>
    obtain ⟨p, hp, rfl⟩ := Option.map_eq_some_iff.mp h
    obtain ⟨hm, hs⟩ := (closest_mem hp).resolve_left (by rintro ⟨⟩)
    refine ⟨hm, ?_⟩
    rw [applies, hi, Option.any_some, ← Bool.not_eq_false, ← Selector.best?_eq_none, hs]
    rintro ⟨⟩

/-- Nothing is chosen only if nothing applies. -/
theorem chosen_eq_none :
    chosen f ls params xs = none ↔ ∀ x ∈ xs, applies f ls params x = false := by
  rw [chosen]
  split
  · next hi => simp [applies, hi]
  · next d hi =>
    rw [Option.map_eq_none_iff, closest_eq_none, eq_self, true_and]
    simp only [applies, hi, Option.any_some, Selector.best?_eq_none]

/-- What is chosen among values of items is the value of the item that is chosen. -/
theorem chosen_map {β : Type} (g : β → Selector) (f : α → β) (ls : Languages) (params : Json)
    (xs : List α) : chosen g ls params (xs.map f) = (chosen (g ∘ f) ls params xs).map f := by
  have hclosest : ∀ (d : Document) (top : Option (Nat × α)),
      closest g d (top.map (Prod.map id f)) (xs.map f) =
        (closest (g ∘ f) d top xs).map (Prod.map id f) := by
    intro d
    induction xs with
    | nil => exact fun _ => rfl
    | cons x xs ih =>
      intro top
      rw [List.map_cons, closest, closest, Function.comp_apply]
      split
      · exact ih top
      · next score _ =>
        cases top with
        | none => exact ih (some (score, x))
        | some p =>
          obtain ⟨best, y⟩ := p
          simp only [Option.map_some, Prod.map_apply, id_eq]
          split
          · exact ih (some (score, x))
          · exact ih (some (best, y))
  rw [chosen, chosen]
  split
  · rfl
  · next d _ =>
    rw [show closest g d none (xs.map f) = _ from hclosest d none, Option.map_map, Option.map_map]
    rfl

end choice

namespace Dispatcher

variable {d : Dispatcher} {method : String} {params : Json} {h : Handler}

/-- The descriptors for a method that serve requests, or those that serve notifications, in the
order of their registration. -/
def candidates (d : Dispatcher) (method : String) (request : Bool) : List Entry :=
  d.entries.filter fun e =>
    e.descriptor.method == method && e.descriptor.kind.isRequest == request

theorem mem_candidates {request : Bool} {e : Entry} : e ∈ d.candidates method request ↔
    e ∈ d.entries ∧ e.descriptor.method = method ∧ e.descriptor.kind.isRequest = request := by
  simp [candidates]

/-- Every descriptor that applies serves a notification, if there is any for its method. -/
theorem handlersFor_eq (d : Dispatcher) (method : String) (params : Json) :
    d.handlersFor method params =
      if d.candidates method false = [] then (d.notifications.lookup method).toList
      else ((d.candidates method false).filter (applies Entry.selector d.languages params)).map
        fun e => e.descriptor.handler := by
  have hc : (d.entriesFor method).filter (fun e => !e.descriptor.kind.isRequest) =
      d.candidates method false := by
    rw [entriesFor, List.filter_filter]
    exact List.filter_congr fun e _ => by
      cases e.descriptor.kind.isRequest <;> simp [Bool.and_comm]
  simp only [handlersFor, hc, List.isEmpty_iff, routed_eq_filter]

/-- One descriptor serves a request, if there is any for its method. -/
theorem handlerFor_eq (d : Dispatcher) (method : String) (params : Json) :
    d.handlerFor method params =
      if d.candidates method true = [] then d.requests.lookup method
      else (chosen Entry.selector d.languages params (d.candidates method true)).map
        fun e => e.descriptor.handler := by
  have hc : (d.entriesFor method).filter (fun e => e.descriptor.kind.isRequest) =
      d.candidates method true := by
    rw [entriesFor, List.filter_filter]
    exact List.filter_congr fun e _ => by
      cases e.descriptor.kind.isRequest <;> simp [Bool.and_comm]
  simp only [handlerFor, hc, List.isEmpty_iff]

namespace Tabled

/-- The handler of a request is a handler for requests. -/
theorem handlerFor (hd : d.Tabled) (hh : d.handlerFor method params = some h) :
    h.kind.isRequest = true := by
  rw [handlerFor_eq] at hh
  split at hh
  · obtain ⟨l₁, l₂, hl, -⟩ := List.lookup_eq_some_iff.mp hh
    exact hd.requests (method, h) (by rw [hl]; simp)
  · obtain ⟨e, he, rfl⟩ := Option.map_eq_some_iff.mp hh
    exact (mem_candidates.mp (chosen_mem he).1).2.2

/-- The handlers of a notification are not handlers for requests. -/
theorem handlersFor (hd : d.Tabled) (hh : h ∈ d.handlersFor method params) :
    h.kind.isRequest = false := by
  rw [handlersFor_eq] at hh
  split at hh
  · obtain ⟨l₁, l₂, hl, -⟩ := List.lookup_eq_some_iff.mp (Option.mem_toList.mp hh)
    exact hd.notifications (method, h) (by rw [hl]; simp)
  · obtain ⟨e, he, rfl⟩ := List.mem_map.mp hh
    exact (mem_candidates.mp (List.mem_filter.mp he).1).2.2

end Tabled

end Dispatcher

end Parley

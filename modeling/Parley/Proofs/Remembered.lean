import Parley.Proofs.Routed

/-!
# What is remembered about documents

A dispatcher remembers of a document what it was told last: that it is open, and in which language,
or that it is closed. Of a document that nothing was told about it remembers what it did before. For
its choice among handlers nothing else counts but what is registered.

- `Languages.hear`: what is remembered after some messages, `Languages.lastNews`: what these told.
- `Languages.get?_hear`: the one by means of the other.
- `Dispatcher.serving`: the handlers that a message starts; `Dispatcher.Alike.serving` says what
  they depend on.
-/

namespace Parley

/-! ## What messages tell -/

namespace Languages

variable {ls ls' : Languages} {u : Uri}

/-- What is remembered after a message came in. -/
def heed (ls : Languages) : Message → Languages
  | .notification method params => (ls.opened method params).closed method params
  | _ => ls

/-- What is remembered after some messages came in. -/
def hear (ls : Languages) (ms : List Message) : Languages := ms.foldl heed ls

/-- What a message tells about a document: that it is open, and its language, or that it is
closed. -/
def news (u : Uri) : Message → Option (Option String)
  | .notification method params =>
    let item := params.index "textDocument"
    if Uri.ofJson? (item.index "uri") = some u then
      if method = didOpen then (item.index "languageId").asText?.map some
      else if method = didClose then some none
      else none
    else none
  | _ => none

/-- What some messages told last about a document. -/
def lastNews (u : Uri) : List Message → Option (Option String)
  | [] => none
  | m :: ms => (lastNews u ms).or (news u m)

theorem get?_opened (ls : Languages) (method : String) (params : Json) (u : Uri) :
    (ls.opened method params).get? u =
      if method = didOpen ∧ Uri.ofJson? ((params.index "textDocument").index "uri") = some u then
        (((params.index "textDocument").index "languageId").asText?).or (ls.get? u)
      else ls.get? u := by
  rw [opened]
  by_cases hm : method = didOpen
  · rw [if_pos hm]
    simp only [hm, true_and]
    split
    · next v l hv hl =>
      rw [hv, hl]
      by_cases hu : v = u
      · rw [if_pos (congrArg some hu), hu, get?_insert_self]
        rfl
      · rw [if_neg (mt Option.some.inj hu), get?_insert_ne ls l (Ne.symm hu)]
    · next hn =>
      split
      · next hv =>
        cases hl : ((params.index "textDocument").index "languageId").asText? with
        | none => rfl
        | some l => exact absurd hl (hn u l hv)
      · rfl
  · rw [if_neg hm, if_neg fun h => hm h.1]

theorem get?_closed (ls : Languages) (method : String) (params : Json) (u : Uri) :
    (ls.closed method params).get? u =
      if method = didClose ∧ Uri.ofJson? ((params.index "textDocument").index "uri") = some u then
        none
      else ls.get? u := by
  rw [closed]
  by_cases hm : method = didClose
  · rw [if_pos hm]
    simp only [hm, true_and]
    split
    · next v hv =>
      rw [hv]
      by_cases hu : v = u
      · rw [if_pos (congrArg some hu), hu, get?_erase_self]
      · rw [if_neg (mt Option.some.inj hu), get?_erase_ne ls (Ne.symm hu)]
    · next hn => rw [hn, if_neg (by rintro ⟨⟩)]
  · rw [if_neg hm, if_neg fun h => hm h.1]

/-- A message that tells about a document decides what is remembered of it. -/
theorem get?_heed (ls : Languages) (m : Message) (u : Uri) :
    (ls.heed m).get? u = (news u m).getD (ls.get? u) := by
  cases m with
  | notification method params =>
    have hne : didOpen ≠ didClose := by decide
    simp only [heed, news, get?_closed, get?_opened]
    by_cases hu : Uri.ofJson? ((params.index "textDocument").index "uri") = some u
    · by_cases ho : method = didOpen
      · subst ho
        simp only [hu, hne, if_true, if_false, and_true]
        cases ((params.index "textDocument").index "languageId").asText? <;> rfl
      · by_cases hc : method = didClose
        · subst hc
          simp [hu, ho]
        · simp [hu, ho, hc]
    · simp [hu]
  | _ => rfl

/-- What is remembered of a document is what was told last, or else what was remembered before. -/
theorem get?_hear (ls : Languages) (ms : List Message) (u : Uri) :
    (ls.hear ms).get? u = (lastNews u ms).getD (ls.get? u) := by
  induction ms generalizing ls with
  | nil => rfl
  | cons m ms ih =>
    show (hear (ls.heed m) ms).get? u = _
    rw [ih, get?_heed, lastNews]
    cases lastNews u ms <;> rfl

theorem hear_append (ls : Languages) (ms ns : List Message) :
    ls.hear (ms ++ ns) = (ls.hear ms).hear ns := List.foldl_append

/-- Which document params are about depends on what is remembered of each document, in no other
way. -/
theorem identify_congr (h : ∀ u, ls.get? u = ls'.get? u) (params : Json) :
    ls.identify params = ls'.identify params := by
  rw [identify, identify]
  split
  · rfl
  · next u _ => rw [h u]

end Languages

/-! ## What routing depends on -/

namespace Dispatcher

variable {x y : Dispatcher}

/-- The handlers that a message starts. -/
def serving (x : Dispatcher) : Message → List Handler
  | .notification method params =>
    if method = cancelMethod then [] else (x.observe method params).handlersFor method params
  | .request _ method params => (x.handlerFor method params).toList
  | _ => []

theorem languages_heed (x : Dispatcher) (m : Message) :
    (x.heed m).languages = x.languages.heed m := by
  cases m with
  | notification method params =>
    rw [heed]
    split
    · next h =>
      -- A cancellation opens no document and closes none.
      rw [h, Languages.heed, Languages.opened, if_neg (by decide), Languages.closed,
        if_neg (by decide)]
    · rfl
  | _ => rfl

/-- Whether the same handlers are registered with two dispatchers. The numbers of the registrations
may differ. -/
structure Alike (x y : Dispatcher) : Prop where
  notifications : ∀ method, x.notifications.lookup method = y.notifications.lookup method
  requests : ∀ method, x.requests.lookup method = y.requests.lookup method
  descriptors : x.entries.map Entry.descriptor = y.entries.map Entry.descriptor

namespace Alike

/-- The descriptors for a method are the same. -/
theorem candidates (h : x.Alike y) (method : String) (request : Bool) :
    (x.candidates method request).map Entry.descriptor =
      (y.candidates method request).map Entry.descriptor := by
  have hd := congrArg (List.filter fun e : Descriptor =>
    e.method == method && e.kind.isRequest == request) h.descriptors
  rwa [List.filter_map, List.filter_map] at hd

theorem handlersFor (h : x.Alike y) {params : Json}
    (hi : x.languages.identify params = y.languages.identify params) (method : String) :
    x.handlersFor method params = y.handlersFor method params := by
  -- Both are read off the descriptors.
  have read : ∀ z : Dispatcher, z.handlersFor method params =
      if (z.candidates method false).map Entry.descriptor = [] then
        (z.notifications.lookup method).toList
      else (((z.candidates method false).map Entry.descriptor).filter
        (applies Descriptor.selector z.languages params)).map Descriptor.handler := by
    intro z
    rw [handlersFor_eq, List.filter_map, List.map_map]
    simp only [List.map_eq_nil_iff]
    rfl
  have ha : applies Descriptor.selector x.languages params =
      applies Descriptor.selector y.languages params := by
    funext e
    rw [applies, applies, hi]
  rw [read, read, h.candidates, h.notifications, ha]

theorem handlerFor (h : x.Alike y) {params : Json}
    (hi : x.languages.identify params = y.languages.identify params) (method : String) :
    x.handlerFor method params = y.handlerFor method params := by
  have read : ∀ z : Dispatcher, z.handlerFor method params =
      if (z.candidates method true).map Entry.descriptor = [] then z.requests.lookup method
      else (chosen Descriptor.selector z.languages params
        ((z.candidates method true).map Entry.descriptor)).map Descriptor.handler := by
    intro z
    rw [handlerFor_eq, chosen_map, Option.map_map]
    simp only [List.map_eq_nil_iff]
    rfl
  have hc : ∀ ds : List Descriptor, chosen Descriptor.selector x.languages params ds =
      chosen Descriptor.selector y.languages params ds := fun ds => by rw [chosen, chosen, hi]
  rw [read, read, h.candidates, h.requests, hc]

/-- Where the same is registered and the same is remembered, messages start the same handlers. -/
theorem serving (h : x.Alike y) (hl : ∀ u, x.languages.get? u = y.languages.get? u) (m : Message) :
    x.serving m = y.serving m := by
  cases m with
  | notification method params =>
    have hobs : (x.observe method params).Alike (y.observe method params) :=
      ⟨h.notifications, h.requests, h.descriptors⟩
    have hi : (x.observe method params).languages.identify params =
        (y.observe method params).languages.identify params :=
      Languages.identify_congr (fun u => by
        rw [observe, observe, Languages.get?_opened, Languages.get?_opened, hl u]) params
    rw [Dispatcher.serving, Dispatcher.serving, hobs.handlersFor hi]
  | request id method params =>
    rw [Dispatcher.serving, Dispatcher.serving, h.handlerFor (Languages.identify_congr hl params)]
  | _ => rfl

end Alike

end Dispatcher

end Parley

import Parley.Proofs.Inflow
import Parley.Proofs.Inherited

/-!
# What a dispatcher has heard

All that a dispatcher remembers of documents comes from the messages that were handed to it, over
whichever of its connections, from the first one on: a document has a language exactly if the last
of them that opened or closed it has opened it in that language. For the choice among handlers the
history counts as it was before the message in question, so that a message that closes a document is
still routed with its language; and a language that the message itself tells counts before all
others.

- `LeaveOpen`: the language in which some messages leave a document.
- `Selector.Fits`: whether params fit a selector, by their own words and by what was told before.
- `Network.heard`: the messages that were handed to a dispatcher.
- `Network.Path.remembers`: what was heard is what is remembered.
- `Network.tracks_languages`: the whole.
-/

namespace Parley

/-! ## Messages that open and close documents -/

/-- The document that params name: in the member for a text document, or else at the top. -/
def Json.document? (params : Json) : Option Uri :=
  (Uri.ofJson? ((params.index "textDocument").index "uri")).or (Uri.ofJson? (params.index "uri"))

/-- The language that params name. -/
def Json.language? (params : Json) : Option String :=
  ((params.index "textDocument").index "languageId").asText?

namespace Message

/-- Whether a message opens a document, in a language. -/
def Opens (u : Uri) (l : String) : Message → Prop
  | .notification method params => method = didOpen ∧
      Uri.ofJson? ((params.index "textDocument").index "uri") = some u ∧ params.language? = some l
  | _ => False

/-- Whether a message closes a document. -/
def Closes (u : Uri) : Message → Prop
  | .notification method params => method = didClose ∧
      Uri.ofJson? ((params.index "textDocument").index "uri") = some u
  | _ => False

/-- Whether a message neither opens a document nor closes it. -/
def Spares (u : Uri) (m : Message) : Prop :=
  (∀ l, ¬m.Opens u l) ∧ ¬m.Closes u

end Message

/-- Whether the last of some messages that opens or closes a document opens it in a language. -/
def LeaveOpen (ms : List Message) (u : Uri) (l : String) : Prop :=
  ∃ before m after, ms = before ++ m :: after ∧ m.Opens u l ∧ ∀ k ∈ after, k.Spares u

namespace Languages

variable {ls : Languages} {u : Uri} {m : Message}

theorem news_eq_open {l : String} : news u m = some (some l) ↔ m.Opens u l := by
  cases m with
  | notification method params =>
    simp only [news, Message.Opens, Json.language?]
    split
    · split <;> simp_all
    · simp_all
  | _ => simp [news, Message.Opens]

theorem news_eq_closed : news u m = some none ↔ m.Closes u := by
  cases m with
  | notification method params =>
    have hne : didOpen ≠ didClose := by decide
    simp only [news, Message.Closes]
    split
    · split <;> simp_all
    · simp_all
  | _ => simp [news, Message.Closes]

theorem news_eq_none : news u m = none ↔ m.Spares u := by
  simp only [Message.Spares, ← news_eq_open, ← news_eq_closed]
  cases news u m with
  | none => simp
  | some o => cases o <;> simp

/-- What was told last was told by one message, and those after it told nothing. -/
theorem lastNews_eq_some {ms : List Message} {o : Option String} : lastNews u ms = some o ↔
    ∃ before m after, ms = before ++ m :: after ∧ news u m = some o ∧
      ∀ k ∈ after, news u k = none := by
  have hrev : lastNews u ms = ms.reverse.findSome? (news u) := by
    induction ms with
    | nil => rfl
    | cons m ms ih =>
      rw [lastNews, ih, List.reverse_cons, List.findSome?_append, List.findSome?_singleton]
  rw [hrev, List.findSome?_eq_some_iff]
  constructor
  · rintro ⟨after, m, before, he, hm, ha⟩
    refine ⟨before.reverse, m, after.reverse, ?_, hm, fun k hk => ha k (List.mem_reverse.mp hk)⟩
    rw [← List.reverse_reverse ms, he]
    simp
  · rintro ⟨before, m, after, rfl, hm, ha⟩
    exact ⟨after.reverse, m, before.reverse, by simp, hm, fun k hk => ha k (List.mem_reverse.mp hk)⟩

/-- From nothing, what is remembered of a document is the language in which it was left open. -/
theorem get?_hear_nil {ms : List Message} {l : String} :
    (hear [] ms).get? u = some l ↔ LeaveOpen ms u l := by
  have hnil : get? ([] : Languages) u = none := rfl
  have hlast : (hear [] ms).get? u = some l ↔ lastNews u ms = some (some l) := by
    rw [get?_hear, hnil]
    cases lastNews u ms <;> simp
  simp only [hlast, lastNews_eq_some, news_eq_open, news_eq_none, LeaveOpen]

/-- Messages that tell about no document change nothing. -/
theorem hear_of_spares {ms : List Message} (h : ∀ m ∈ ms, ∀ u, m.Spares u) : ls.hear ms = ls := by
  -- A message that spares every document changes no memory: it opens none and closes none.
  have heed_of_spares : ∀ {m : Message}, (∀ u, m.Spares u) → ls.heed m = ls := fun {m} h => by
    cases m with
    | notification method params =>
      have ho : ls.opened method params = ls := by
        rw [opened]
        split
        · next hm =>
          simp only
          split
          · next u l hu hl => exact absurd ⟨hm, hu, hl⟩ ((h u).1 l)
          · rfl
        · rfl
      have hc : ls.closed method params = ls := by
        rw [closed]
        split
        · next hm =>
          split
          · next u hu => exact absurd ⟨hm, hu⟩ (h u).2
          · rfl
        · rfl
      rw [heed, ho, hc]
    | _ => rfl
  induction ms with
  | nil => rfl
  | cons m ms ih =>
    show hear (ls.heed m) ms = ls
    rw [heed_of_spares (h m List.mem_cons_self), ih fun m hm => h m (List.mem_cons_of_mem _ hm)]

theorem identify_eq (ls : Languages) (params : Json) : ls.identify params =
    params.document?.map fun u => ⟨u, params.language?.or (ls.get? u)⟩ := by
  rw [identify, Json.document?, Json.language?]
  split
  · next hn => rw [hn, Option.map_none]
  · next u hu => rw [hu, Option.map_some]

/-- A message that opens a document is routed by its own words. -/
theorem identify_opened (ls : Languages) (method : String) (params : Json) :
    (ls.opened method params).identify params = ls.identify params := by
  simp only [identify_eq, get?_opened]
  cases params.document? with
  | none => rfl
  | some u =>
    simp only [Option.map_some]
    split
    · rw [Json.language?, ← Option.or_assoc, Option.or_self]
    · rfl

end Languages

/-! ## Routing by what was told -/

/-- Whether the document that params are about is known to have a language: they tell it themselves,
or they tell none and it was left open in that language. -/
def Told (ms : List Message) (params : Json) (u : Uri) (l : String) : Prop :=
  params.language? = some l ∨ params.language? = none ∧ LeaveOpen ms u l

/-- Whether a document that params are about fits a filter, after some messages. -/
structure Filter.Fits (g : Filter) (ms : List Message) (params : Json) (u : Uri) : Prop where
  scheme : g.acceptsScheme ⟨u, none⟩ = true
  path : g.acceptsPath ⟨u, none⟩ = true
  language : ∀ l, g.language = some l → Told ms params u l

/-- Whether params are about a document that fits a filter of a selector, after some messages. -/
def Selector.Fits (s : Selector) (ms : List Message) (params : Json) : Prop :=
  ∃ u, params.document? = some u ∧ ∃ g ∈ s, g.Fits ms params u

/-- Where a document is remembered in the language in which it was left open, an item applies if its
selector fits. -/
theorem applies_iff {α : Type} {f : α → Selector} {ls : Languages} {ms : List Message}
    {params : Json} {x : α} (h : ∀ u l, ls.get? u = some l ↔ LeaveOpen ms u l) :
    applies f ls params x = true ↔ (f x).Fits ms params := by
  have told : ∀ u l, params.language?.or (ls.get? u) = some l ↔ Told ms params u l := fun u l => by
    rw [Option.or_eq_some_iff, h, Told]
  have fits : ∀ (g : Filter) (u : Uri),
      g.accepts ⟨u, params.language?.or (ls.get? u)⟩ = true ↔ g.Fits ms params u := fun g u => by
    have hl : g.acceptsLanguage ⟨u, params.language?.or (ls.get? u)⟩ = true ↔
        ∀ l, g.language = some l → Told ms params u l := by
      rw [Filter.acceptsLanguage]
      cases g.language with
      | none => simp
      | some l => simp [← told]
    rw [Filter.accepts, Bool.and_eq_true, Bool.and_eq_true, hl]
    exact ⟨fun h => ⟨h.1.1, h.2, h.1.2⟩, fun h => ⟨⟨h.scheme, h.language⟩, h.path⟩⟩
  rw [applies, Languages.identify_eq, Selector.Fits]
  cases params.document? with
  | none => simp
  | some u => simp [Selector.accepts, fits]

/-- A selector for a language fits a document whose params tell no language exactly if the document
was left open in that language. -/
theorem Selector.fits_ofLanguage {ms : List Message} {params : Json} {u : Uri} (l : String)
    (hu : params.document? = some u) (hl : params.language? = none) :
    (Selector.ofLanguage l).Fits ms params ↔ LeaveOpen ms u l := by
  constructor
  · rintro ⟨v, hv, g, hg, hf⟩
    obtain rfl := Option.some.inj (hu.symm.trans hv)
    obtain rfl := List.mem_singleton.mp hg
    rcases hf.language l rfl with h | h
    · cases hl.symm.trans h
    · exact h.2
  · intro h
    refine ⟨u, hu, _, List.mem_singleton_self _, rfl, rfl, ?_⟩
    rintro _ ⟨⟩
    exact .inr ⟨hl, h⟩

/-! ## The messages that were handed to a dispatcher -/

/-- The messages that came in over some connections, in order. -/
def Journal.receivedOver (p : Nat → Bool) : Journal → List Message
  | [] => []
  | .received c m :: j => if p c then receivedOver p j ++ [m] else receivedOver p j
  | _ :: j => receivedOver p j

namespace Journal

variable {p q : Nat → Bool}

theorem receivedOver_append (p : Nat → Bool) (es j : Journal) :
    receivedOver p (es ++ j) = receivedOver p j ++ receivedOver p es := by
  induction es with
  | nil => simp [receivedOver]
  | cons e es ih =>
    cases e with
    | received c m => by_cases h : p c <;> simp [receivedOver, h, ih]
    | _ => simpa [receivedOver] using ih

theorem receivedOver_filter (p : Nat → Bool) (j : Journal) :
    receivedOver p (j.filter Event.isInflow) = receivedOver p j := by
  induction j with
  | nil => rfl
  | cons e j ih =>
    cases e with
    | logged l => cases l <;> exact ih
    | received d m =>
      show receivedOver p (.received d m :: List.filter Event.isInflow j) = _
      rw [receivedOver, receivedOver, ih]
    | _ => exact ih

/-- Connections over which nothing came in do not matter. -/
theorem receivedOver_congr {j : Journal} (h : ∀ c, j.received c ≠ [] → p c = q c) :
    receivedOver p j = receivedOver q j := by
  induction j with
  | nil => rfl
  | cons e j ih =>
    have ih := ih fun c hc => h c fun hn => hc <| by
      have := received_append c [e] j
      rw [List.singleton_append, hn] at this
      exact (List.append_eq_nil_iff.mp this.symm).1
    cases e with
    | received c m =>
      have hc : p c = q c := h c (by simp [received])
      rw [receivedOver, receivedOver, ih, hc]
    | _ => exact ih

theorem mem_receivedOver {m : Message} {j : Journal} (h : m ∈ receivedOver p j) :
    ∃ c, Event.received c m ∈ j := by
  induction j with
  | nil => cases h
  | cons e j ih =>
    have later : m ∈ receivedOver p j → ∃ c, Event.received c m ∈ e :: j := fun h =>
      (ih h).imp fun c hc => List.mem_cons_of_mem e hc
    cases e with
    | received c k =>
      rw [receivedOver] at h
      split at h
      · rcases List.mem_append.mp h with h | h
        · exact later h
        · exact ⟨c, by simp_all⟩
      · exact later h
    | _ => exact later h

/-- Events that tell nothing add nothing to what is remembered. -/
theorem hear_receivedOver (ls : Languages) (p : Nat → Bool) {es : Journal}
    (h : ∀ e ∈ es, e.tells = false) : ls.hear (receivedOver p es) = ls := by
  refine Languages.hear_of_spares fun m hm u => ?_
  obtain ⟨c, hc⟩ := mem_receivedOver hm
  cases m with
  | notification method params => cases h _ hc
  | _ => exact ⟨fun _ => id, id⟩

end Journal

namespace Network

variable {w w' : Network} {c d : Nat} {x : Connection}

/-- Whether a dispatcher serves a connection. -/
def isServedBy (w : Network) (d c : Nat) : Bool := (w.conns[c]?).any (·.dispatcher = some d)

/-- The messages that were handed to a dispatcher, in order. -/
def heard (w : Network) (d : Nat) : List Message := w.journal.receivedOver (w.isServedBy d)

theorem isServedBy_of_conn (hx : w.conns[c]? = some x) (hd : x.dispatcher = some d) (e : Nat) :
    w.isServedBy e c = decide (d = e) := by
  rw [isServedBy, hx, Option.any_some, hd]
  simp

/-- A connection that was connected keeps its dispatcher. -/
theorem Path.isServedBy (h : Path {} w) (hw : Path w w') {l : Link} (hx : w.conns[c]? = some x)
    (hl : x.link = some l) (d : Nat) : w'.isServedBy d c = w.isServedBy d c := by
  have ho := h.ordered
  obtain ⟨y, es, hy, -, hm⟩ := hw.conn ho.housed hx
  rw [Network.isServedBy, Network.isServedBy, hx, hy, Option.any_some, Option.any_some,
    hm.dispatcher (ho.sound.conn c x hx) hl]

/-- A connection that is read from has a dispatcher. -/
theorem Path.exists_dispatcher (h : Path {} w) (hx : w.conns[c]? = some x) (hr : x.IsReading)
    (hd : x.dispatcher = some d) : ∃ z, w.dispatchers[d]? = some z := by
  obtain ⟨l, hl⟩ := (h.ordered.sound.conn c x hx).live_of_isReading hr
  have hopen : x.isOpen = true := by rw [Connection.isOpen_of_link hl.link, hl.isOpen]
  obtain ⟨b, z, hb, hz, -⟩ := h.bound c x hx hopen
  obtain rfl := Option.some.inj (hd.symm.trans hb)
  exact ⟨z, hz⟩

/-- What was heard stays heard, and what is new comes behind it. -/
theorem Path.heard (h : Path {} w) (hw : Path w w') {es : Journal}
    (hj : w'.journal = es ++ w.journal) (d : Nat) :
    w'.heard d = w.heard d ++ es.receivedOver (w'.isServedBy d) := by
  rw [Network.heard, hj, Journal.receivedOver_append]
  refine congrArg (· ++ _) (Journal.receivedOver_congr fun c hc => ?_)
  -- Over a connection that was never connected nothing came in.
  cases hx : w.conns[c]? with
  | none => exact absurd (Journal.received_eq_nil (h.ordered.sound.other c hx)) hc
  | some x =>
    obtain ⟨l, hl⟩ := Option.ne_none_iff_exists'.mp fun hl => hc (h.received_of_unused hx hl)
    exact h.isServedBy hw hx hl d

/-- Whether every dispatcher remembers what it has heard, and nothing else. -/
def Attentive (w : Network) : Prop :=
  ∀ d, ((w.dispatchers[d]?).elim [] (·.languages) : Languages) = Languages.hear [] (w.heard d)

theorem Attentive.recalls (hP : w.Attentive) (h : Path {} w) (hw : Path w w')
    (hr : Recalls w w')
    (hnew : ∀ (d : Nat) (y : Dispatcher), w.dispatchers[d]? = none → w'.dispatchers[d]? = some y →
      y = {}) :
    w'.Attentive := by
  intro d
  obtain ⟨es, hj, he⟩ := hr.journal
  rw [h.heard hw hj, Languages.hear_append, Journal.hear_receivedOver _ _ he, ← hP d]
  cases hx : w.dispatchers[d]? with
  | some x =>
    obtain ⟨y, hy, hl⟩ := hr.dispatcher d x hx
    rw [hy]
    exact hl
  | none =>
    cases hy : w'.dispatchers[d]? with
    | none => rfl
    | some y => rw [hnew d y hx hy]; rfl

/-- Every move keeps it: what comes in for a dispatcher is remembered by it, and heard by nobody
else. -/
theorem Attentive.step (hP : w.Attentive) (h : Path {} w) (hm : Move w w') : w'.Attentive := by
  have hw : Path w w' := .of_moves (.single hm)
  rcases hm.tidings with hr | ⟨c, d, x, m, hx, hread, hd, hj, hds⟩
  · -- Nothing was heard: the memories are those of before, and a new dispatcher has heard nothing.
    refine hP.recalls h hw hr fun d y hn hy => ?_
    rcases hm.dispatcher hy with ⟨x, hx, -⟩ | rfl
    · cases hn.symm.trans hx
    · rfl
  · -- Something was heard over a connection that reads: its dispatcher heeds it, and no other.
    obtain ⟨l, hl⟩ := (h.ordered.sound.conn c x hx).live_of_isReading hread
    obtain ⟨z, hz⟩ := h.exists_dispatcher hx hread hd
    intro e
    have hserved : w'.isServedBy e c = decide (d = e) := by
      rw [h.isServedBy hw hx hl.link, isServedBy_of_conn hx hd]
    -- Whoever is served at this moment was served when the message came in.
    have hheard := h.heard hw (show w'.journal = [.received c m] ++ w.journal from hj) e
    rw [hheard, Languages.hear_append, ← hP e, Journal.receivedOver, hserved, hds,
      List.getElem?_modify]
    by_cases he : d = e
    · subst he
      simp only [decide_true, if_true, hz, Option.map_eq_map, Option.map_some, Option.elim_some,
        z.languages_heed]
      rfl
    · simp only [he, decide_false, Bool.false_eq_true, if_false]
      cases w.dispatchers[e]? <;> rfl

/-- Every dispatcher remembers what it has heard, and nothing else. -/
theorem Path.attentive (h : Path {} w) : w.Attentive := by
  induction h with
  | refl => intro d; rfl
  | move h hm ih => exact ih.step h hm
  | pop h hq ih => exact ih
  | @drop v k x h hk hx ho ih =>
    exact ih.recalls h ((Path.refl v).drop hk hx ho) (.givenUp v k x) fun d y hn hy => by
      cases hn.symm.trans hy

theorem Path.remembers (h : Path {} w) {z : Dispatcher} (hz : w.dispatchers[d]? = some z) :
    z.languages = Languages.hear [] (w.heard d) := by
  have := h.attentive d
  rwa [hz, Option.elim_some] at this

/-! ## Messages that are handed on -/

section reading

variable (hx : w.conns[c]? = some x) (hr : x.IsReading) (hd : x.dispatcher = some d)

include hx hr hd

/-- A message that is handed to a dispatcher is heard. -/
theorem heard_receive (m : Message) : (w.receive c m).heard d = w.heard d ++ [m] := by
  have hserved : (w.receive c m).isServedBy d = w.isServedBy d := by
    funext b
    have hb := congrArg (fun xs : List Connection => (xs[b]?).any (·.dispatcher = some d))
      (inside_receive hx hr m).loops
    simpa [loops, isServedBy, Option.any_map, Function.comp_def] using hb
  have hin := congrArg Inflow.journal (inflow_receive hx hd m)
  have hc : w.isServedBy d c = true := by simp [isServedBy_of_conn hx hd]
  rw [heard, hserved, ← Journal.receivedOver_filter]
  show Journal.receivedOver _ (w.receive c m).inflow.journal = _
  rw [hin]
  show Journal.receivedOver _ (List.filter Event.isInflow (.received c m :: w.journal)) = _
  rw [Journal.receivedOver_filter, Journal.receivedOver, if_pos hc]
  rfl

/-- Messages that are handed on one after the other are all heard. -/
theorem heard_receives (ms : List Message) :
    Inside w (ms.foldl (fun w m => w.receive c m) w) ∧
      (ms.foldl (fun w m => w.receive c m) w).heard d = w.heard d ++ ms := by
  induction ms generalizing w x with
  | nil => exact ⟨.refl w, (List.append_nil _).symm⟩
  | cons m ms ih =>
    have hm := inside_receive hx hr m
    obtain ⟨l, hl, hr'⟩ := hm.conn hx hr
    obtain ⟨hin, hms⟩ := ih hl hr' hd
    refine ⟨hm.trans hin, hms.trans ?_⟩
    rw [heard_receive hx hr hd, List.append_assoc, List.singleton_append]

end reading

/-! ## The whole -/

/-- **Languages are what was heard.** Whatever happens in a network, a dispatcher remembers a
language of a document exactly if the last of the messages that were ever handed to it which opens
or closes this document opens it, in that language. Any further messages are heard in their order,
and those that open and close nothing change nothing. What a message starts depends on what was
heard before it, and on its own words, which count first: a notification starts the handlers of
those descriptors that fit, in their order, and a request that of one which fits, or it is refused
if none does. So a descriptor for a language is selected by params that tell none exactly if their
document was left open in that language. -/
theorem tracks_languages (h : Reachable w) (v : Network) (hv : Path w v) {z : Dispatcher}
    (hz : v.dispatchers[d]? = some z) :
    (∀ u l, z.languages.get? u = some l ↔ LeaveOpen (v.heard d) u l) ∧
    ∀ (c : Nat) (x : Connection), v.conns[c]? = some x → x.IsReading → x.dispatcher = some d →
      (∀ ms : List Message, ∃ z',
        (ms.foldl (fun v m => v.receive c m) v).dispatchers[d]? = some z' ∧
        (ms.foldl (fun v m => v.receive c m) v).heard d = v.heard d ++ ms ∧
        (∀ u l, z'.languages.get? u = some l ↔ LeaveOpen (v.heard d ++ ms) u l) ∧
        ((∀ m ∈ ms, ∀ u, m.Spares u) → z'.languages = z.languages)) ∧
      ∀ (method : String) (params : Json), ∃ selected : Entry → Bool,
        let run (id : Option Id) (e : Entry) : Run :=
          { conn := c, dispatcher := d, id, method, handler := e.descriptor.handler, params }
        (∀ e, selected e = true ↔ e.selector.Fits (v.heard d) params) ∧
        (∀ e l u, e.selector = .ofLanguage l → params.document? = some u →
          params.language? = none → (selected e = true ↔ LeaveOpen (v.heard d) u l)) ∧
        (method ≠ cancelMethod → z.candidates method false ≠ [] →
          Starts v (v.receive c (.notification method params))
            (((z.candidates method false).filter selected).map (run none))) ∧
        ∀ id, z.candidates method true ≠ [] →
          (∃ e ∈ z.candidates method true, selected e = true ∧
            Starts v (v.receive c (.request id method params)) [run (some id) e]) ∨
          (∀ e ∈ z.candidates method true, selected e = false) ∧
            Declines v (v.receive c (.request id method params)) c id method params := by
  have hp := h.path.trans hv
  have remembered : ∀ {w : Network} {z : Dispatcher}, Path {} w → w.dispatchers[d]? = some z →
      ∀ u l, z.languages.get? u = some l ↔ LeaveOpen (w.heard d) u l := fun hw hz u l => by
    rw [hw.remembers hz, Languages.get?_hear_nil]
  refine ⟨remembered hp hz, fun c x hx hr hd => ⟨fun ms => ?_, fun method params => ?_⟩⟩
  · obtain ⟨hin, hms⟩ := heard_receives hx hr hd ms
    have hp' := hp.moves hin.moves
    obtain ⟨l, hl, hr'⟩ := hin.conn hx hr
    obtain ⟨z', hz'⟩ := hp'.exists_dispatcher hl hr' hd
    refine ⟨z', hz', hms, hms ▸ remembered hp' hz', fun hspares => ?_⟩
    rw [hp'.remembers hz', hms, Languages.hear_append, ← hp.remembers hz,
      Languages.hear_of_spares hspares]
  · let selected (e : Entry) : Bool := applies Entry.selector z.languages params e
    have hsel : ∀ e, selected e = true ↔ e.selector.Fits (v.heard d) params := fun e =>
      applies_iff (remembered hp hz)
    refine ⟨selected, hsel, fun e l u he hu hl => ?_, fun hm hn => ?_, fun id hn => ?_⟩
    · rw [hsel, he, Selector.fits_ofLanguage l hu hl]
    · have hs := starts_notification hx hd hz params hm
      -- What the message tells about itself is known anyway.
      have ha : applies Entry.selector (z.observe method params).languages params = selected := by
        funext e
        simp only [selected, applies, Dispatcher.observe, Languages.identify_opened]
      rw [Dispatcher.handlersFor_eq, ha] at hs
      have hc : (z.observe method params).candidates method false = z.candidates method false := rfl
      rwa [hc, if_neg hn, List.map_map] at hs
    · have hh := Dispatcher.handlerFor_eq z method params
      rw [if_neg hn] at hh
      cases hc : chosen Entry.selector z.languages params (z.candidates method true) with
      | some e =>
        obtain ⟨hm, ha⟩ := chosen_mem hc
        exact .inl ⟨e, hm, ha, starts_request hx hd hz id (by rw [hh, hc, Option.map_some])⟩
      | none =>
        exact .inr ⟨chosen_eq_none.mp hc,
          declines_request hx hd hz id (by rw [hh, hc, Option.map_none])⟩

/-- A document is opened under another spelling of its URI, and then once more without a language.
The message that closes it is routed with the language, and after it none is remembered. -/
theorem tracks_languages_closed :
    let about (uri : String) (rest : List (String × Json)) : Json :=
      .ofMembers [("textDocument", .ofMembers (("uri", .str uri) :: rest))]
    let opens : Message := .notification didOpen
      (about "FILE:///b/../a" [("languageId", .str "lean")])
    let again : Message := .notification didOpen (about "file:///a" [("languageId", .null)])
    let closes : Message := .notification didClose (about "file:///a" [])
    let lean : Descriptor :=
      { method := didClose, key := "k", selector := .ofLanguage "lean", paramsType := "value",
        handler := { kind := .notification, payload := .any, label := "h" } }
    let w := run {} [.openScript {}, .openDispatcher, .register 0 lean [], .connect 0 0,
      .feed 0 (opens.frame ++ again.frame) false, .settle 9]
    w.heard 0 = [opens, again] ∧
      ((w.receive 0 closes).runs.map fun y => y.handler.label) = ["h"] ∧
      ∃ z u, (w.receive 0 closes).dispatchers[0]? = some z ∧
        Uri.ofJson? (.str "file:///a") = some u ∧ ∀ l, z.languages.get? u ≠ some l := by
  intro about opens again closes lean w
  have hw : Reachable w := ⟨_, rfl⟩
  have hstate : (decide (w.heard 0 = [opens, again] ∧ w.runs.map (·.handler.label) = []) &&
      (w.conns[0]?).any (fun x => decide (x.dispatcher = some 0 ∧ x.shutdown = false ∧
        x.reading ≠ .notStarted ∧ x.reading ≠ .stopped)) &&
      (w.dispatchers[0]?).any fun z => decide ((z.candidates didClose false).map
        (fun e => (e.selector, e.descriptor.handler.label)) = [(.ofLanguage "lean", "h")])) =
      true := by
    decide +kernel
  have htold : (Uri.ofJson? (.str "file:///a")).any (fun u => decide (
      (Languages.news u opens = some (some "lean") ∧ Languages.news u again = none) ∧
      Languages.news u closes = some none ∧ (about "file:///a" []).document? = some u ∧
      (about "file:///a" []).language? = none)) = true := by
    decide +kernel
  clear_value w
  simp only [Bool.and_eq_true, decide_eq_true_eq, Option.any_eq_true] at hstate htold
  obtain ⟨⟨⟨hheard, hruns⟩, x, hx, hd, hs, hstarted, hrunning⟩, z, hz, hc⟩ := hstate
  obtain ⟨u, hu, ⟨hopens, hagain⟩, hcloses, hdoc, hlang⟩ := htold
  have hread : x.IsReading := by
    refine ⟨?_, hs⟩
    cases hx : x.reading with
    | notStarted => exact absurd hx hstarted
    | running s => exact ⟨s, rfl⟩
    | stopped => exact absurd hx hrunning
  obtain ⟨hlater, hrouted⟩ := (tracks_languages hw w (.refl w) hz).2 0 x hx hread hd
  refine ⟨hheard, ?_, ?_⟩
  · obtain ⟨selected, -, hsel, hstarts, -⟩ := hrouted didClose (about "file:///a" [])
    obtain ⟨e, he, hv⟩ := List.map_eq_singleton_iff.mp hc
    obtain ⟨hs, hlabel⟩ := Prod.mk.inj hv
    have hopen : LeaveOpen (w.heard 0) u "lean" :=
      ⟨[], opens, [again], hheard, Languages.news_eq_open.mp hopens, fun k hk => by
        obtain rfl := List.mem_singleton.mp hk
        exact Languages.news_eq_none.mp hagain⟩
    have hsel : selected e = true := (hsel e "lean" u hs hdoc hlang).mpr hopen
    have hst := hstarts (by decide) (by rw [he]; simp)
    rw [he, List.filter_cons_of_pos hsel] at hst
    rw [hst.runs, List.map_append, hruns]
    simpa using hlabel
  · obtain ⟨z', hz', -, hl, -⟩ := hlater [closes]
    refine ⟨z', u, hz', hu, fun l hg => ?_⟩
    -- The message that comes last closes the document.
    obtain ⟨before, m, after, he, hm, ha⟩ := (hl u l).mp hg
    have hlast : closes ∈ m :: after := by
      have h := congrArg List.getLast? he
      rw [List.getLast?_append, List.getLast?_append] at h
      exact List.mem_of_getLast? (by simpa using h.symm)
    rcases List.mem_cons.mp hlast with rfl | hm'
    · cases hcloses.symm.trans (Languages.news_eq_open.mpr hm)
    · cases hcloses.symm.trans (Languages.news_eq_none.mpr (ha closes hm'))

end Network

end Parley

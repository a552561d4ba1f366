import Parley.Proofs.Chronicle

/-!
# What is registered with a dispatcher

However handlers are registered and taken back, a method has at most one plain handler for
notifications and one for requests, and at most one descriptor under each key. This is what a
registration is refused for, and nothing else. The descriptors stand in the order of their
registration; which ones stand is known from what users and handlers asked for.

- `Dispatcher.Unambiguous`: what a registration must not break.
- `Dispatcher.handle_eq`, `Dispatcher.register_eq`: when a registration is refused.
- `Network.Filed`: what every chronicle keeps; `Network.Chronicle.filed_dispatchers` says so.
- `Network.Filed.dispatchers_unregister`: what taking a registration back does to dispatchers.
- `Network.keeps_registry`: **what is registered is unambiguous and stands in order, and a
  registration is refused if and only if it would be ambiguous**.
-/

namespace Parley

/-- The registrations, one of which has been taken back. -/
def spend (rs : List Registration) (n : Nat) : List Registration :=
  rs.modify n fun r => { r with actions := none }

/-- A spent registration keeps its number. -/
@[simp] theorem length_spend (rs : List Registration) (n : Nat) :
    (spend rs n).length = rs.length := by
  rw [spend, List.length_modify]

/-- A spent registration has no more actions. -/
theorem getElem?_spend_self (rs : List Registration) (n : Nat) :
    (spend rs n)[n]? = (rs[n]?).map fun r => { r with actions := none } := by
  simp [spend]

/-- Spending one registration leaves the others. -/
theorem getElem?_spend_ne {rs : List Registration} {m n : Nat} (h : n ≠ m) :
    (spend rs n)[m]? = rs[m]? := by
  simp [spend, h]

/-! ## What may be registered -/

/-- What a descriptor must not share with another one. -/
def Entry.name (e : Entry) : String × String := (e.descriptor.method, e.descriptor.key)

/-- A list that grows by one has distinct names as long as the new one is new. -/
theorem nodup_map_append_one {α β : Type} {f : α → β} {l : List α} {a : α} :
    ((l ++ [a]).map f).Nodup ↔ (l.map f).Nodup ∧ f a ∉ l.map f := by
  rw [List.map_append, List.map_singleton, List.nodup_append, and_congr_right_iff]
  intro _
  constructor
  · rintro ⟨-, h⟩ ha
    exact h (f a) ha (f a) List.mem_cons_self rfl
  · intro ha
    refine ⟨List.pairwise_singleton _ _, fun b hb c hc hbc => ha ?_⟩
    obtain rfl := List.mem_singleton.mp hc
    exact hbc ▸ hb

/-- A method is looked up with success if the table has it. -/
theorem lookup_isSome_iff {β : Type} {l : List (String × β)} {k : String} :
    (l.lookup k).isSome = true ↔ k ∈ l.map Prod.fst := by
  rw [List.lookup_isSome_iff, List.mem_map]
  exact exists_congr fun p => and_congr_right fun _ => by rw [beq_iff_eq, eq_comm]

namespace Dispatcher

/-- Whether a method has at most one plain handler for notifications and one for requests, and at
most one descriptor under each key. -/
structure Unambiguous (x : Dispatcher) : Prop where
  notifications : (x.notifications.map Prod.fst).Nodup
  requests : (x.requests.map Prod.fst).Nodup
  entries : (x.entries.map Entry.name).Nodup

instance (x : Dispatcher) : Decidable x.Unambiguous :=
  decidable_of_iff
    ((x.notifications.map Prod.fst).Nodup ∧ (x.requests.map Prod.fst).Nodup ∧
      (x.entries.map Entry.name).Nodup)
    ⟨fun h => ⟨h.1, h.2.1, h.2.2⟩, fun h => ⟨h.notifications, h.requests, h.entries⟩⟩

/-- A dispatcher with one more plain handler, even if there was one for the method. -/
def add (x : Dispatcher) (method : String) (h : Handler) : Dispatcher :=
  if h.kind.isRequest then { x with requests := x.requests ++ [(method, h)] }
  else { x with notifications := x.notifications ++ [(method, h)] }

/-- A dispatcher with one more descriptor, even if there was one under its key. -/
def push (x : Dispatcher) (e : Entry) : Dispatcher := { x with entries := x.entries ++ [e] }

/-- A dispatcher without a descriptor, unless nobody holds the dispatcher any more. -/
def without (n : Nat) (x : Dispatcher) : Dispatcher := if x.gone then x else x.remove n

variable {x : Dispatcher}

/-- A dispatcher that is gone has nothing to remove. -/
theorem without_of_gone (h : x.gone = true) (n : Nat) : x.without n = x := if_pos h

/-- One that is still there removes the entry. -/
theorem without_of_held (h : x.gone = false) (n : Nat) : x.without n = x.remove n :=
  if_neg (Bool.eq_false_iff.mp h)

/-- A handler can be added without ambiguity if its own table does not have the method. -/
theorem unambiguous_add (hx : x.Unambiguous) (method : String) (h : Handler) :
    (x.add method h).Unambiguous ↔
      method ∉ (if h.kind.isRequest then x.requests else x.notifications).map Prod.fst := by
  rw [add]
  split
  · exact ⟨fun hu => (nodup_map_append_one.mp hu.requests).2,
      fun hm => ⟨hx.notifications, nodup_map_append_one.mpr ⟨hx.requests, hm⟩, hx.entries⟩⟩
  · exact ⟨fun hu => (nodup_map_append_one.mp hu.notifications).2,
      fun hm => ⟨nodup_map_append_one.mpr ⟨hx.notifications, hm⟩, hx.requests, hx.entries⟩⟩

/-- A descriptor can be pushed without ambiguity if no entry has its name. -/
theorem unambiguous_push (hx : x.Unambiguous) (e : Entry) :
    (x.push e).Unambiguous ↔ e.name ∉ x.entries.map Entry.name :=
  ⟨fun hu => (nodup_map_append_one.mp hu.entries).2,
    fun hm => ⟨hx.notifications, hx.requests, nodup_map_append_one.mpr ⟨hx.entries, hm⟩⟩⟩

/-- A plain handler is refused if and only if it would be the second one for its method. -/
theorem handle_eq (hx : x.Unambiguous) (method : String) (h : Handler) :
    x.handle method h = if (x.add method h).Unambiguous then .ok (x.add method h)
      else .error (.duplicateHandler method h.kind) := by
  simp only [unambiguous_add hx, ite_not]
  simp only [handle, lookup_isSome_iff, add]
  cases h.kind.isRequest <;> rfl

/-- A descriptor is refused if and only if it would be the second one under its key. -/
theorem register_eq (hx : x.Unambiguous) (e : Entry) :
    x.register e = if (x.push e).Unambiguous then .ok (x.push e)
      else .error (.duplicateHandler e.descriptor.method e.descriptor.kind) := by
  have htaken : (x.entries.any fun f => f.descriptor.method == e.descriptor.method &&
      f.descriptor.key == e.descriptor.key) = true ↔ e.name ∈ x.entries.map Entry.name := by
    simp [List.any_eq_true, List.mem_map, Entry.name]
  simp only [unambiguous_push hx, ite_not]
  simp only [register, htaken]
  rfl

/-! ## A dispatcher and the minutes -/

/-- What holds of a dispatcher with a number, by the registrations that there are and by what is
written down. Every descriptor that stands can be taken back, by its own number only. -/
structure Filed (x : Dispatcher) (d : Nat) (rs : List Registration) (ms : Minutes) : Prop where
  unambiguous : x.Unambiguous
  tabled : x.Tabled
  numbered : x.Numbered rs.length
  standing : x.gone = false → x.entries = Minutes.standing d ms
  backed : x.gone = false → ∀ e ∈ x.entries, ∃ hooks,
    rs[e.serial]? = some ⟨e.descriptor, d, some (.remove :: hooks)⟩

namespace Filed

variable {d : Nat} {rs rs' : List Registration} {ms ms' : Minutes}

theorem fresh (d : Nat) (rs : List Registration) (hm : Minutes.standing d ms = []) :
    ({} : Dispatcher).Filed d rs ms where
  unambiguous := ⟨List.nodup_nil, List.nodup_nil, List.nodup_nil⟩
  tabled := ⟨by simp, by simp⟩
  numbered := ⟨List.Pairwise.nil, by simp⟩
  standing _ := hm.symm
  backed _ e he := absurd he List.not_mem_nil

/-- What a dispatcher knows about its peer does not count. -/
theorem congr (h : x.Filed d rs ms) {y : Dispatcher} (hy : y.tables = x.tables) :
    y.Filed d rs ms := by
  obtain ⟨hn, hq, he, -, -, -, hg⟩ := Dispatcher.mk.inj hy
  -- Everything that is filed is about the tables, which are the same.
  refine ⟨⟨?_, ?_, ?_⟩, ⟨?_, ?_⟩, ⟨?_, ?_⟩, ?_, ?_⟩
  · rw [hn]
    exact h.unambiguous.notifications
  · rw [hq]
    exact h.unambiguous.requests
  · rw [he]
    exact h.unambiguous.entries
  · rw [hq]
    exact h.tabled.requests
  · rw [hn]
    exact h.tabled.notifications
  · rw [he]
    exact h.numbered.ascending
  · rw [he]
    exact h.numbered.lt
  · rw [he, hg]
    exact h.standing
  · rw [he, hg]
    exact h.backed

/-- There may be more registrations, as long as no more descriptors stand. -/
theorem grow (h : x.Filed d rs ms) (hr : rs <+: rs')
    (hm : Minutes.standing d ms' = Minutes.standing d ms) : x.Filed d rs' ms' where
  unambiguous := h.unambiguous
  tabled := h.tabled
  numbered := ⟨h.numbered.ascending,
    fun e he => Nat.lt_of_lt_of_le (h.numbered.lt e he) hr.length_le⟩
  standing hg := (h.standing hg).trans hm.symm
  backed hg e he := by
    obtain ⟨hooks, he⟩ := h.backed hg e he
    obtain ⟨ts, rfl⟩ := hr
    exact ⟨hooks, getElem?_append_of_some he ts⟩

/-- A plain handler is registered. -/
theorem add (h : x.Filed d rs ms) {method : String} {f : Handler}
    (hu : (x.add method f).Unambiguous)
    (hm : Minutes.standing d ms' = Minutes.standing d ms) :
    (x.add method f).Filed d rs ms' := by
  have hy : x.handle method f = .ok (x.add method f) :=
    (handle_eq h.unambiguous method f).trans (if_pos hu)
  have hsame : (x.add method f).entries = x.entries ∧ (x.add method f).gone = x.gone := by
    rw [Dispatcher.add]
    split <;> exact ⟨rfl, rfl⟩
  refine ⟨hu, (keeps_handle hy).tabled h.tabled, ⟨?_, ?_⟩, ?_, ?_⟩
  · rw [hsame.1]
    exact h.numbered.ascending
  · rw [hsame.1]
    exact h.numbered.lt
  · rw [hsame.1, hsame.2, hm]
    exact h.standing
  · rw [hsame.1, hsame.2]
    exact h.backed

/-- A descriptor is registered, under a number that no other one has. -/
theorem push (h : x.Filed d rs ms) {descriptor : Descriptor} {hooks : List Retraction}
    (hu : (x.push ⟨rs.length, descriptor⟩).Unambiguous)
    (hm : Minutes.standing d ms' = Minutes.standing d ms ++ [⟨rs.length, descriptor⟩]) :
    (x.push ⟨rs.length, descriptor⟩).Filed d
      (rs ++ [⟨descriptor, d, some (.remove :: hooks)⟩]) ms' := by
  have hc : x.Change rs.length (rs.length + 1) (x.push ⟨rs.length, descriptor⟩) :=
    .register (Nat.lt_succ_self _) descriptor
  refine ⟨hu, hc.tabled h.tabled, ?_, fun hg => ?_, fun hg e he => ?_⟩
  · rw [List.length_append, List.length_singleton]
    exact hc.numbered (Nat.le_succ _) h.numbered
  · rw [hm, ← h.standing hg]
    rfl
  · rcases List.mem_append.mp he with he | he
    · obtain ⟨hs, he⟩ := h.backed hg e he
      exact ⟨hs, getElem?_append_of_some he _⟩
    · obtain rfl := List.mem_singleton.mp he
      exact ⟨hooks, List.getElem?_concat_length⟩

/-- A registration is taken back, and its descriptor with it. -/
theorem without (h : x.Filed d rs ms) (n : Nat)
    (hm : Minutes.standing d ms' = (Minutes.standing d ms).filter fun e => e.serial != n) :
    (x.without n).Filed d (spend rs n) ms' := by
  cases hgone : x.gone with
  | true =>
    rw [without_of_gone hgone]
    refine ⟨h.unambiguous, h.tabled, ?_, fun hg => ?_, fun hg => ?_⟩
    · rw [length_spend]
      exact h.numbered
    · cases hgone.symm.trans hg
    · cases hgone.symm.trans hg
  | false =>
    rw [without_of_held hgone]
    -- What is removed is removed from a list in order, so order and uniqueness are inherited by the
    -- rest.
    have hsub : (x.remove n).entries.Sublist x.entries := List.filter_sublist
    refine ⟨⟨h.unambiguous.notifications, h.unambiguous.requests,
        h.unambiguous.entries.sublist (hsub.map Entry.name)⟩,
      ⟨h.tabled.requests, h.tabled.notifications⟩,
      ⟨h.numbered.ascending.sublist (hsub.map Entry.serial), fun e he => ?_⟩, fun hg => ?_,
      fun hg e he => ?_⟩
    · rw [length_spend]
      exact h.numbered.lt e (hsub.subset he)
    · rw [hm, ← h.standing hg]
      rfl
    · obtain ⟨he, hne⟩ := List.mem_filter.mp he
      have hne : n ≠ e.serial := fun hn => by simp [hn] at hne
      rw [getElem?_spend_ne hne]
      exact h.backed hg e he

/-- Nobody holds the dispatcher any more. -/
theorem drop (h : x.Filed d rs ms) (ms' : Minutes) :
    ({ x with gone := true } : Dispatcher).Filed d rs ms' where
  unambiguous := ⟨h.unambiguous.notifications, h.unambiguous.requests, h.unambiguous.entries⟩
  tabled := ⟨h.tabled.requests, h.tabled.notifications⟩
  numbered := ⟨h.numbered.ascending, h.numbered.lt⟩
  standing hg := Bool.noConfusion hg
  backed hg := Bool.noConfusion hg

end Filed

end Dispatcher

namespace Network

variable {w w' : Network} {ms : Minutes}

/-! ## What taking back does -/

/-- Whatever is done when a registration is taken back, at most its descriptor goes. -/
theorem foldl_retract (n d : Nat) (actions : List Retraction) (w : Network) :
    (actions.foldl (retract n d) w).registrations = w.registrations ∧
      (actions.foldl (retract n d) w).dispatchers =
        if .remove ∈ actions then w.dispatchers.modify d (Dispatcher.without n)
        else w.dispatchers := by
  -- Removing twice is removing once, so it does not matter how often the chain says it.
  have twice : Dispatcher.without n ∘ Dispatcher.without n = Dispatcher.without n := by
    funext x
    rw [Function.comp_apply]
    cases hg : x.gone with
    | true => rw [Dispatcher.without_of_gone hg, Dispatcher.without_of_gone hg]
    | false =>
      have hg' : (x.remove n).gone = false := hg
      rw [Dispatcher.without_of_held hg, Dispatcher.without_of_held hg']
      simp [Dispatcher.remove]
  induction actions generalizing w with
  | nil => exact ⟨rfl, rfl⟩
  | cons a actions ih =>
    obtain ⟨hr, hd⟩ := ih (retract n d w a)
    rw [List.foldl_cons, hr, hd]
    cases a with
    | remove =>
      refine ⟨rfl, ?_⟩
      have hd : (retract n d w .remove).dispatchers =
          w.dispatchers.modify d (Dispatcher.without n) := rfl
      rw [hd, List.modify_modify_eq, twice, ite_self, if_pos List.mem_cons_self]
    | hook name counts =>
      refine ⟨rfl, ?_⟩
      have hd : (retract n d w (.hook name counts)).dispatchers = w.dispatchers := rfl
      simp only [hd, List.mem_cons, reduceCtorEq, false_or]

/-- A retraction spends the registration, whatever became of its entry. -/
theorem registrations_unregister (w : Network) (n : Nat) :
    (w.unregister n).2.registrations = spend w.registrations n := by
  rw [unregister]
  split
  · next hn => exact (modify_eq_of_none hn _).symm
  · next r hr =>
    split
    · next ha =>
      refine (modify_eq_of_eq fun r' hr' => ?_).symm
      obtain rfl := Option.some.inj (hr.symm.trans hr')
      rw [← ha]
    · exact (foldl_retract n _ _ _).1

/-- A descriptor goes from at most one dispatcher, namely from its own. -/
theorem dispatchers_unregister_cases (w : Network) (n : Nat) :
    (∃ r actions, w.registrations[n]? = some r ∧ r.actions = some actions ∧ .remove ∈ actions ∧
      (w.unregister n).2.dispatchers = w.dispatchers.modify r.dispatcher (Dispatcher.without n)) ∨
    ((∀ r actions, w.registrations[n]? = some r → r.actions = some actions → .remove ∉ actions) ∧
      (w.unregister n).2.dispatchers = w.dispatchers) := by
  -- Only a registration that is there and not spent has a chain, and only a chain with its own step
  -- removes the entry.
  rw [unregister]
  split
  · next hn => exact .inr ⟨fun r actions hr => (by cases hn.symm.trans hr), rfl⟩
  · next r hr =>
    split
    · next ha =>
      refine .inr ⟨fun r' actions hr' ha' => ?_, rfl⟩
      obtain rfl := Option.some.inj (hr.symm.trans hr')
      cases ha.symm.trans ha'
    · next actions ha =>
      rw [(foldl_retract n _ _ _).2]
      by_cases hm : Retraction.remove ∈ actions
      · rw [if_pos hm]
        exact .inl ⟨r, actions, hr, ha, hm, rfl⟩
      · rw [if_neg hm]
        refine .inr ⟨fun r' actions' hr' ha' => ?_, rfl⟩
        obtain rfl := Option.some.inj (hr.symm.trans hr')
        obtain rfl := Option.some.inj (ha.symm.trans ha')
        exact hm

/-- What holds of every dispatcher, by what is written down. -/
def Filed (ms : Minutes) (w : Network) : Prop :=
  ∀ (d : Nat) (x : Dispatcher), w.dispatchers[d]? = some x → x.Filed d w.registrations ms

/-- Taking a registration back takes its descriptor out wherever it stands, and no other one. -/
theorem Filed.dispatchers_unregister (h : Filed ms w) (n : Nat) :
    (w.unregister n).2.dispatchers = w.dispatchers.map (Dispatcher.without n) := by
  -- A descriptor stands only where its registration says so.
  have keeps : ∀ {d : Nat} {x : Dispatcher}, w.dispatchers[d]? = some x →
      (∀ descriptor hooks,
        w.registrations[n]? ≠ some ⟨descriptor, d, some (.remove :: hooks)⟩) →
      x.without n = x := by
    intro d x hx hn
    cases hg : x.gone with
    | true => exact Dispatcher.without_of_gone hg n
    | false =>
      have hall : ∀ e ∈ x.entries, (e.serial != n) = true := by
        intro e he
        obtain ⟨hooks, hr⟩ := (h d x hx).backed hg e he
        rw [bne_iff_ne]
        rintro rfl
        exact hn _ hooks hr
      rw [Dispatcher.without_of_held hg, Dispatcher.remove, List.filter_eq_self.mpr hall]
  refine List.ext_getElem? fun d => ?_
  rw [List.getElem?_map]
  rcases dispatchers_unregister_cases w n with ⟨r, actions, hr, ha, hm, hd⟩ | ⟨hn, hd⟩
  · rw [hd, List.getElem?_modify]
    cases hx : w.dispatchers[d]? with
    | none => rfl
    | some x =>
      by_cases he : r.dispatcher = d
      · simp [he]
      · have hx' : x.without n = x := keeps hx fun descriptor hooks hr' => by
          obtain rfl := Option.some.inj (hr.symm.trans hr')
          exact he rfl
        simp [he, hx']
  · rw [hd]
    cases hx : w.dispatchers[d]? with
    | none => rfl
    | some x =>
      rw [Option.map_some, keeps hx fun descriptor hooks hr' =>
        hn _ _ hr' rfl List.mem_cons_self]

/-! ## What every chronicle keeps -/

/-- The minutes of one item more post that item. -/
theorem standing_append_one (d : Nat) (ms : Minutes) (m : Action × Answer) :
    Minutes.standing d (ms ++ [m]) = Minutes.post d (Minutes.standing d ms) m :=
  Minutes.standing_append d ms [m]

namespace Filed

/-- What is nothing to the registry is nothing to what is filed. -/
theorem idle (h : Filed ms w) (hw : w'.registry = w.registry) : Filed ms w' := by
  obtain ⟨hr, hd⟩ := Registry.mk.inj hw
  intro d y hy
  have hx : (w.dispatchers.map Dispatcher.tables)[d]? = some y.tables := by
    rw [← hd, List.getElem?_map, hy, Option.map_some]
  rw [List.getElem?_map] at hx
  obtain ⟨x, hx, hxy⟩ := Option.map_eq_some_iff.mp hx
  rw [hr]
  exact (h d x hx).congr hxy.symm

/-- A dispatcher changes, and the registrations may grow. -/
theorem modify (h : Filed ms w) {d : Nat} {f : Dispatcher → Dispatcher} {ts : List Registration}
    {m : Action × Answer} (hd : w'.dispatchers = w.dispatchers.modify d f)
    (hr : w'.registrations = w.registrations ++ ts)
    (hself : ∀ x, w.dispatchers[d]? = some x → x.Filed d w.registrations ms →
      (f x).Filed d w'.registrations (ms ++ [m]))
    (hother : ∀ e es, e ≠ d → Minutes.post e es m = es) : Filed (ms ++ [m]) w' := by
  intro e y hy
  rw [hd] at hy
  obtain ⟨x, hx, rfl⟩ := getElem?_modify_eq_some hy
  split
  · next he =>
    subst he
    exact hself x hx (h _ x hx)
  · next he =>
    refine (h e x hx).grow (hr ▸ List.prefix_append _ _) ?_
    rw [standing_append_one, hother e _ (Ne.symm he)]

/-- Something was written down that has to do with no descriptor. -/
theorem note (h : Filed ms w) (m : Action × Answer)
    (hm : ∀ d es, Minutes.post d es m = es) : Filed (ms ++ [m]) w := fun d x hx =>
  (h d x hx).grow List.prefix_rfl (by rw [standing_append_one, hm])

/-- A dispatcher that is opened has nothing filed. -/
theorem act_openDispatcher (h : Filed ms w) :
    Filed (ms ++ [(.openDispatcher, .made w.dispatchers.length)])
      { w with dispatchers := w.dispatchers ++ [{}] } := by
  intro d x hx
  rcases getElem?_append_one hx with hx | ⟨rfl, rfl⟩
  · -- The new dispatcher has a number of its own, and nothing stands there yet.
    have hlt : d < w.dispatchers.length := (List.getElem?_eq_some_iff.mp hx).1
    refine (h d x hx).grow List.prefix_rfl ?_
    rw [standing_append_one]
    exact if_neg (Nat.ne_of_gt hlt)
  · refine .fresh _ _ ?_
    rw [standing_append_one]
    exact if_pos rfl

/-- One that is dropped stands for nothing any more. -/
theorem act_dropDispatcher (h : Filed ms w) (d : Nat) :
    Filed (ms ++ [(.dropDispatcher d, .done)]) (w.dropDispatcher d) := by
  rw [dropDispatcher]
  split
  · exact h.note _ fun _ _ => rfl
  · exact h.modify rfl (List.append_nil _).symm (fun x _ hx => hx.drop _)
      fun _ _ _ => rfl

end Filed

/-! ## When a registration is refused -/

/-- A plain handler that would be the second one is refused, and nothing changes. -/
theorem act_handle {d : Nat} {x : Dispatcher} (hx : w.dispatchers[d]? = some x)
    (hu : x.Unambiguous) (method : String) (f : Handler) :
    w.act (.handle d method f) = if (x.add method f).Unambiguous
      then (.done, w.modifyDispatcher d fun _ => x.add method f)
      else (.refused (.duplicateHandler method f.kind), w) := by
  show w.attempt (w.handle d method f) = _
  rw [handle, hx]
  simp only [Dispatcher.handle_eq hu]
  split <;> rfl

/-- A descriptor that would be the second one under its key is refused, and nothing changes. -/
theorem act_register {d : Nat} {x : Dispatcher} (hx : w.dispatchers[d]? = some x)
    (hu : x.Unambiguous) (descriptor : Descriptor) (hooks : List Retraction) :
    w.act (.register d descriptor hooks) =
      if (x.push ⟨w.registrations.length, descriptor⟩).Unambiguous then
        (.made w.registrations.length,
          { w.modifyDispatcher d (fun _ => x.push ⟨w.registrations.length, descriptor⟩) with
            registrations :=
              w.registrations ++ [⟨descriptor, d, some (.remove :: hooks.reverse)⟩] })
      else (.refused (.duplicateHandler descriptor.method descriptor.kind), w) := by
  show w.attemptMade (w.register d descriptor hooks) = _
  rw [register, hx]
  simp only [Dispatcher.register_eq hu, Retraction.chain_chainAll]
  split <;> rfl

namespace Filed

/-- A handler that is added, or refused, is filed like that. -/
theorem act_handle (h : Filed ms w) (d : Nat) (method : String) (f : Handler) :
    Filed (ms ++ [(.handle d method f, (w.act (.handle d method f)).1)])
      (w.act (.handle d method f)).2 := by
  cases hx : w.dispatchers[d]? with
  | none =>
    have hact : w.act (.handle d method f) = (.done, w) := by
      show w.attempt (w.handle d method f) = _
      rw [handle, hx]
      rfl
    rw [hact]
    exact h.note _ fun _ _ => rfl
  | some x =>
    rw [Network.act_handle hx (h d x hx).unambiguous]
    split
    · next hu =>
      refine h.modify rfl (List.append_nil _).symm (fun x' hx' _ => ?_) fun _ _ _ => rfl
      refine (h d x hx).add hu ?_
      rw [standing_append_one]
      rfl
    · exact h.note _ fun _ _ => rfl

/-- So is a descriptor that is registered, or refused. -/
theorem act_register (h : Filed ms w) (d : Nat) (descriptor : Descriptor)
    (hooks : List Retraction) :
    Filed (ms ++ [(.register d descriptor hooks, (w.act (.register d descriptor hooks)).1)])
      (w.act (.register d descriptor hooks)).2 := by
  cases hx : w.dispatchers[d]? with
  | none =>
    have hact : w.act (.register d descriptor hooks) = (.made w.registrations.length, { w with
        registrations :=
          w.registrations ++ [⟨descriptor, d, some (.remove :: hooks.reverse)⟩] }) := by
      show w.attemptMade (w.register d descriptor hooks) = _
      rw [register, hx, Retraction.chain_chainAll]
      rfl
    rw [hact]
    intro e y hy
    refine (h e y hy).grow (List.prefix_append _ _) ?_
    rw [standing_append_one]
    -- What is registered with no dispatcher at all stands nowhere.
    refine if_neg fun he => ?_
    subst he
    cases hx.symm.trans hy
  | some x =>
    rw [Network.act_register hx (h d x hx).unambiguous]
    split
    · next hu =>
      refine h.modify rfl rfl (fun x' hx' _ => ?_) fun e es he => if_neg (Ne.symm he)
      refine (h d x hx).push hu ?_
      rw [standing_append_one]
      exact if_pos rfl
    · exact h.note _ fun _ _ => rfl

/-- And so is a retraction. -/
theorem act_unregister (h : Filed ms w) (n : Nat) :
    Filed (ms ++ [(.unregister n, .flag (w.unregister n).1)]) (w.unregister n).2 := by
  intro d y hy
  rw [h.dispatchers_unregister n, List.getElem?_map] at hy
  obtain ⟨x, hx, rfl⟩ := Option.map_eq_some_iff.mp hy
  rw [registrations_unregister]
  refine (h d x hx).without n ?_
  rw [standing_append_one]
  rfl

/-- Whatever is asked for about registrations keeps it. -/
theorem act (h : Filed ms w) {a : Action} (ha : a.isFiling = true) :
    Filed (ms ++ [(a, (w.act a).1)]) (w.act a).2 := by
  cases a with
  | openDispatcher => exact h.act_openDispatcher
  | dropDispatcher d => exact h.act_dropDispatcher d
  | handle d method f => exact h.act_handle d method f
  | register d descriptor hooks => exact h.act_register d descriptor hooks
  | keep d descriptor hooks =>
    exact fun e x hx => (h e x hx).grow (List.prefix_append _ _) (standing_append_one ..)
  | unregister n => exact h.act_unregister n
  | _ => cases ha

end Filed

/-- Whatever a chronicle says, the dispatchers are filed accordingly. -/
theorem Chronicle.filed_dispatchers (h : Chronicle ms w) : Filed ms w := by
  induction h with
  | fresh => exact fun d x hx => by cases hx
  | filed _ ha ih => exact ih.act ha
  | idle _ hw ih => exact ih.idle hw

/-- A descriptor that is taken back makes room for another one under its key. -/
theorem Filed.reregister (h : Filed ms w) {d : Nat} {x : Dispatcher}
    (hx : w.dispatchers[d]? = some x) (hg : x.gone = false) {e : Entry} (he : e ∈ x.entries)
    {descriptor : Descriptor} (hmethod : descriptor.method = e.descriptor.method)
    (hkey : descriptor.key = e.descriptor.key) (hooks : List Retraction) :
    ∃ v, (w.unregister e.serial).2.act (.register d descriptor hooks) =
        (.made w.registrations.length, v) ∧
      v.dispatchers[d]? =
        some ((x.remove e.serial).push ⟨w.registrations.length, descriptor⟩) := by
  have hfiled := h.act_unregister e.serial
  have hd : (w.unregister e.serial).2.dispatchers[d]? = some (x.remove e.serial) := by
    rw [h.dispatchers_unregister, List.getElem?_map, hx, Option.map_some,
      Dispatcher.without_of_held hg]
  have hl : (w.unregister e.serial).2.registrations.length = w.registrations.length := by
    rw [registrations_unregister, length_spend]
  have hnodup : ((x.entries.map fun f => (f.name, f)).map Prod.fst).Nodup := by
    rw [List.map_map]
    exact (h d x hx).unambiguous.entries
  have hfree : ((x.remove e.serial).push ⟨w.registrations.length, descriptor⟩).Unambiguous := by
    refine (Dispatcher.unambiguous_push (hfiled d _ hd).unambiguous _).mpr fun hm => ?_
    -- Another descriptor under this key would have stood there beside the one that goes.
    obtain ⟨f, hf, hname⟩ := List.mem_map.mp hm
    obtain ⟨hf, hne⟩ := List.mem_filter.mp hf
    have hname : f.name = e.name := hname.trans (Prod.ext hmethod hkey)
    obtain rfl : f = e := eq_of_nodup_fst hnodup (List.mem_map.mpr ⟨f, hf, rfl⟩)
      (List.mem_map.mpr ⟨e, he, by rw [hname]⟩)
    simp at hne
  rw [Network.act_register hd (hfiled d _ hd).unambiguous, hl, if_pos hfree]
  refine ⟨_, rfl, ?_⟩
  simp [modifyDispatcher, hd]

/-- **What is registered is unambiguous and stands in order.** Every use of a network has a
chronicle of what users and handlers asked for about registrations. By every chronicle, a method of
a dispatcher has at most one plain handler for notifications and one for requests, each in its own
table, and no two descriptors share their method and their key. The descriptors for a method are
those that were registered and not taken back since, in the order of their registration. A
registration is refused if and only if it would break this, with the method and the kind of what is
refused, and then nothing changes. A key that was freed can be used again, at the end of the order.
-/
theorem keeps_registry :
    (∀ actions, ∃ ms, Chronicle ms (run {} actions) ∧
      ((transcript {} actions).filter (·.1.isFiling)).Sublist ms ∧
      ∀ m ∈ ms, m ∈ transcript {} actions ∨ Minutes.IsWithdrawal m) ∧
    ∀ ms w, Chronicle ms w → ∀ d x, w.dispatchers[d]? = some x →
      x.Unambiguous ∧ x.Tabled ∧
      (x.gone = false → ∀ method, x.entriesFor method =
        (Minutes.standing d ms).filter fun e => e.descriptor.method == method) ∧
      (∀ method f, w.act (.handle d method f) = if (x.add method f).Unambiguous
        then (.done, w.modifyDispatcher d fun _ => x.add method f)
        else (.refused (.duplicateHandler method f.kind), w)) ∧
      (∀ descriptor hooks, w.act (.register d descriptor hooks) =
        if (x.push ⟨w.registrations.length, descriptor⟩).Unambiguous then
          (.made w.registrations.length,
            { w.modifyDispatcher d (fun _ => x.push ⟨w.registrations.length, descriptor⟩) with
              registrations :=
                w.registrations ++ [⟨descriptor, d, some (.remove :: hooks.reverse)⟩] })
        else (.refused (.duplicateHandler descriptor.method descriptor.kind), w)) ∧
      (x.gone = false → ∀ e ∈ x.entries, ∀ descriptor hooks,
        descriptor.method = e.descriptor.method → descriptor.key = e.descriptor.key →
        ∃ v, (w.act (.unregister e.serial)).2.act (.register d descriptor hooks) =
            (.made w.registrations.length, v) ∧
          v.dispatchers[d]? =
            some ((x.remove e.serial).push ⟨w.registrations.length, descriptor⟩)) := by
  refine ⟨fun actions => Chronicle.fresh.run actions, fun ms w h d x hx => ?_⟩
  have hw := h.filed_dispatchers
  have hd := hw d x hx
  refine ⟨hd.unambiguous, hd.tabled, fun hg method => ?_, act_handle hx hd.unambiguous,
    act_register hx hd.unambiguous, fun hg e he descriptor hooks hmethod hkey => ?_⟩
  · -- What is found for a method stands in the minutes, in their order.
    rw [Dispatcher.entriesFor, hd.standing hg]
  · -- The name that was freed can be used again.
    exact hw.reregister hx hg he hmethod hkey hooks

/-- A key is freed and used again, behind a descriptor that came later; the plain handler for the
method does not matter. -/
theorem keeps_registry_reused :
    let lens (key : String) : Descriptor :=
      { method := "m", key, handler := { kind := .request, payload := .any, label := key },
        selector := .ofLanguage "lean", paramsType := "value" }
    let plain : Handler := { kind := .command, payload := .any, label := "plain" }
    let w := run {} [.openDispatcher, .handle 0 "m" plain, .register 0 (lens "a") [],
      .register 0 (lens "b") [], .unregister 0, .register 0 (lens "a") []]
    ∃ x, w.dispatchers[0]? = some x ∧ x.Unambiguous ∧
      (x.entriesFor "m").map Entry.serial = [1, 2] ∧
      w.act (.handle 0 "m" plain) = (.refused (.duplicateHandler "m" .command), w) ∧
      w.act (.register 0 (lens "b") []) = (.refused (.duplicateHandler "m" .request), w) := by
  intro lens plain w
  have hc : Chronicle _ w := Chronicle.fresh.transcript _ (by decide)
  have hx := (Option.some_get (show (w.dispatchers[0]?).isSome = true by decide +kernel)).symm
  obtain ⟨hu, -, hs, hh, hr, -⟩ := keeps_registry.2 _ w hc 0 _ hx
  refine ⟨_, hx, hu, ?_, ?_, ?_⟩
  · rw [hs (by decide +kernel)]
    decide +kernel
  · rw [hh, if_neg (by decide +kernel)]
  · rw [hr, if_neg (by decide +kernel)]
    rfl

end Network

end Parley

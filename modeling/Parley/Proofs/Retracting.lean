import Parley.Proofs.Filing

/-!
# How a registration is taken back

A registration can be taken back once, by whoever holds it. Its descriptor is taken out of the
dispatcher first; no other descriptor goes, not even one that was registered later under the same
key. Then the hooks run, the one that was added last first, and none of them sees the descriptor any
more.

- `Network.ran`: what the hooks leave behind.
- `Network.unregister_registered`, `Network.unregister_kept`, `Network.unregister_spent`: what
  taking back does.
- `Network.Awaits`: what a chronicle keeps of one registration.
- `Network.retracts_once`: **exactly the first one who takes a registration back is told so, and the
  descriptor and the hooks go their way once**.
-/

namespace Parley

/-- A hook, with its name; it may count the descriptors for a method of a dispatcher. -/
abbrev Hook := String × Option (Nat × String)

def Retraction.ofHook (h : Hook) : Retraction := .hook h.1 h.2

namespace Minutes

/-- What those were told who took a registration back, in order. -/
def told (n : Nat) (ms : Minutes) : List Answer :=
  ms.filterMap fun
    | (.unregister m, b) => if m = n then some b else none
    | _ => none

/-- The dispatchers that were made. -/
def opened (ms : Minutes) : List Nat :=
  ms.filterMap fun
    | (.openDispatcher, .made d) => some d
    | _ => none

theorem told_append (n : Nat) (ms ns : Minutes) : told n (ms ++ ns) = told n ms ++ told n ns :=
  List.filterMap_append

theorem opened_append (ms ns : Minutes) : opened (ms ++ ns) = opened ms ++ opened ns :=
  List.filterMap_append

theorem told_of_ne (n : Nat) {a : Action} (b : Answer) (ha : ∀ m, a ≠ .unregister m) :
    told n [(a, b)] = [] := by
  cases a with
  | unregister m => exact absurd rfl (ha m)
  | _ => rfl

/-- A descriptor stands until it is taken back, or another dispatcher has the number of its own. -/
theorem mem_post {d : Nat} {e : Entry} {es : List Entry} {m : Action × Answer} (he : e ∈ es)
    (ht : told e.serial [m] = []) (hd : d ∉ opened [m]) : e ∈ post d es m := by
  -- Only three kinds of minutes touch what is posted, and two of them are excluded here.
  obtain ⟨a, b⟩ := m
  cases a with
  | openDispatcher =>
    cases b with
    | made c =>
      have hc : c ≠ d := fun hc => hd (by simp [opened, hc])
      rwa [post, if_neg hc]
    | _ => exact he
  -- A new entry stands behind the others.
  | register c descriptor hooks =>
    cases b with
    | made n =>
      rw [post]
      split
      · exact List.mem_append_left _ he
      · exact he
    | _ => exact he
  -- A retraction takes out its own serial number, and that is another one.
  | unregister n =>
    refine List.mem_filter.mpr ⟨he, ?_⟩
    rw [bne_iff_ne]
    rintro rfl
    simp [told] at ht
  | _ => exact he

theorem mem_foldl_post {d : Nat} {e : Entry} {es : List Entry} {ms : Minutes} (he : e ∈ es)
    (ht : told e.serial ms = []) (hd : d ∉ opened ms) : e ∈ ms.foldl (post d) es := by
  induction ms generalizing es with
  | nil => exact he
  | cons m ms ih =>
    rw [← List.singleton_append] at ht hd
    rw [told_append, List.append_eq_nil_iff] at ht
    rw [opened_append, List.mem_append, not_or] at hd
    exact ih (mem_post he ht.1 hd.1) ht.2 hd.2

end Minutes

/-- A descriptor that is taken out leaves the others where they were. -/
theorem Dispatcher.Numbered.remove {x : Dispatcher} {k : Nat} (h : x.Numbered k) {e : Entry}
    {pre post : List Entry} (he : x.entries = pre ++ e :: post) :
    (x.remove e.serial).entries = pre ++ post := by
  have hs := h.ascending
  rw [he, List.map_append, List.map_cons, List.pairwise_append, List.pairwise_cons] at hs
  obtain ⟨-, ⟨hpost, -⟩, hpre⟩ := hs
  have keeps : ∀ {es : List Entry}, (∀ f ∈ es, f.serial ≠ e.serial) →
      es.filter (fun f => f.serial != e.serial) = es := fun hes =>
    List.filter_eq_self.mpr fun f hf => bne_iff_ne.mpr (hes f hf)
  rw [Dispatcher.remove, he, List.filter_append, List.filter_cons_of_neg (by simp),
    keeps fun f hf => Nat.ne_of_lt (hpre _ (List.mem_map_of_mem hf) _ List.mem_cons_self),
    keeps fun f hf => Nat.ne_of_gt (hpost _ (List.mem_map_of_mem hf))]

namespace Network

variable {w : Network} {n d : Nat} {descriptor : Descriptor} {hooks : List Hook}

/-! ## Taking back -/

/-- What a hook reports. -/
def hookReport (w : Network) (h : Hook) : Event :=
  .reported (.hook h.1 (h.2.bind fun (d, method) =>
    (w.dispatchers[d]?).map fun x => (x.entriesFor method).length))

/-- Hooks have run, each of them once, the last one first. -/
def ran (w : Network) (hooks : List Hook) : Network :=
  { w with journal := hooks.map w.hookReport ++ w.journal }

/-- A registration is spent. -/
def spent (w : Network) (n : Nat) : Network :=
  { w with registrations := spend w.registrations n }

/-- The hooks do no more than report. -/
theorem foldl_hooks (n d : Nat) (hooks : List Hook) (w : Network) :
    (hooks.map Retraction.ofHook).reverse.foldl (retract n d) w = w.ran hooks := by
  rw [List.foldl_reverse]
  induction hooks with
  | nil => rfl
  | cons h hooks ih =>
    rw [List.map_cons, List.foldr_cons, ih]
    rfl

theorem unregister_registered
    (h : w.registrations[n]? =
      some ⟨descriptor, d, some (.remove :: (hooks.map Retraction.ofHook).reverse)⟩) :
    w.unregister n = (true, ((w.spent n).modifyDispatcher d (Dispatcher.without n)).ran hooks) := by
  rw [unregister, h]
  simp only [List.foldl_cons, foldl_hooks]
  rfl

theorem unregister_kept
    (h : w.registrations[n]? = some ⟨descriptor, d, some (hooks.map Retraction.ofHook).reverse⟩) :
    w.unregister n = (true, (w.spent n).ran hooks) := by
  rw [unregister, h]
  simp only [foldl_hooks]
  rfl

theorem unregister_spent (h : w.registrations[n]? = some ⟨descriptor, d, none⟩) :
    w.unregister n = (false, w) := by
  rw [unregister, h]

theorem act_unregister {b : Bool} {v : Network} (h : w.unregister n = (b, v)) :
    w.act (.unregister n) = (.flag b, v) := by
  rw [act, h]

/-- Who takes a registration back is told whether there was something to do. -/
theorem unregister_fst {actions : Option (List Retraction)}
    (h : w.registrations[n]? = some ⟨descriptor, d, actions⟩) :
    (w.unregister n).1 = actions.isSome := by
  rw [unregister, h]
  cases actions <;> rfl

/-! ## What becomes of one registration -/

/-- Apart from making dispatchers and taking registrations back, at most more is registered and one
dispatcher changes. -/
theorem act_changes {a : Action} (ha : a.isFiling = true) (hn : ∀ n, a ≠ .unregister n)
    (ho : a ≠ .openDispatcher) :
    ∃ ts d f, (w.act a).2.registrations = w.registrations ++ ts ∧
      (w.act a).2.dispatchers = w.dispatchers.modify d f := by
  -- What changes nothing changes nothing of dispatcher `0` either, which need not exist.
  have same : w.dispatchers = w.dispatchers.modify 0 id := (modify_eq_of_eq fun _ _ => rfl).symm
  have refused : ∃ ts d f, w.registrations = w.registrations ++ ts ∧
      w.dispatchers = w.dispatchers.modify d f :=
    ⟨[], 0, id, (List.append_nil _).symm, same⟩
  cases a with
  | openDispatcher => exact absurd rfl ho
  | dropDispatcher d =>
    rw [act, dropDispatcher]
    split
    · exact refused
    · exact ⟨[], d, _, (List.append_nil _).symm, rfl⟩
  -- A handler or a descriptor may be refused; then nothing is written down.
  | handle d method f =>
    rw [act, handle]
    cases w.dispatchers[d]? with
    | none => exact refused
    | some x =>
      simp only
      cases x.handle method f with
      | error e => exact refused
      | ok y => exact ⟨[], d, _, (List.append_nil _).symm, rfl⟩
  | register d descriptor hooks =>
    rw [act, register]
    cases w.dispatchers[d]? with
    | none => exact ⟨_, 0, id, rfl, same⟩
    | some x =>
      simp only
      cases x.register ⟨w.registrations.length, descriptor⟩ with
      | error e => exact refused
      | ok y => exact ⟨_, d, _, rfl, rfl⟩
  | keep d descriptor hooks => exact ⟨_, 0, id, rfl, same⟩
  | unregister n => exact absurd rfl (hn n)
  | _ => cases ha

/-- Only taking back changes a registration. -/
theorem registrations_act {a : Action} (ha : a.isFiling = true) (hn : ∀ n, a ≠ .unregister n) :
    w.registrations <+: (w.act a).2.registrations := by
  by_cases ho : a = .openDispatcher
  · subst ho
    exact List.prefix_rfl
  · obtain ⟨ts, _, _, hr, -⟩ := act_changes ha hn ho
    exact ⟨ts, hr.symm⟩

/-- A registration stands as it was made, and nobody has taken it back; or somebody has, was the
only one who was told so if there was something to do, and nothing is left to do. -/
inductive Awaits (n : Nat) (r : Registration) (after : Minutes) (w : Network) : Prop where
  | standing (ht : Minutes.told n after = []) (hr : w.registrations[n]? = some r)
  | spent {later : List Answer} (ht : Minutes.told n after = .flag r.actions.isSome :: later)
      (hl : ∀ b ∈ later, b = .flag false)
      (hr : w.registrations[n]? = some { r with actions := none })

namespace Awaits

variable {r : Registration} {after : Minutes}

/-- The registration of the network does not matter any more. -/
theorem keep {v : Network} {ms : Minutes} (h : Awaits n r after w)
    (ht : Minutes.told n ms = Minutes.told n after)
    (hv : ∀ s, w.registrations[n]? = some s → v.registrations[n]? = some s) :
    Awaits n r ms v := by
  cases h with
  | standing ht' hr => exact .standing (ht.trans ht') (hv _ hr)
  | spent ht' hl hr => exact .spent (ht.trans ht') hl (hv _ hr)

theorem unregister (h : Awaits n r after w) (m : Nat) :
    Awaits n r (after ++ [(.unregister m, .flag (w.unregister m).1)]) (w.unregister m).2 := by
  have hspend := registrations_unregister w m
  by_cases hm : m = n
  · subst hm
    -- The answer that is written down now is about this registration.
    have htold : ∀ b, Minutes.told m (after ++ [(.unregister m, .flag b)]) =
        Minutes.told m after ++ [.flag b] := fun b => by
      rw [Minutes.told_append]
      simp [Minutes.told]
    cases h with
    | standing ht hr =>
      have hfirst : Minutes.told m (after ++ [(.unregister m, .flag (w.unregister m).1)]) =
          .flag r.actions.isSome :: [] := by
        rw [htold, ht, unregister_fst hr]
        rfl
      refine .spent hfirst (fun _ hb => absurd hb List.not_mem_nil) ?_
      rw [hspend, getElem?_spend_self, hr]
      rfl
    | @spent later ht hl hr =>
      have hagain : Minutes.told m (after ++ [(.unregister m, .flag (w.unregister m).1)]) =
          .flag r.actions.isSome :: (later ++ [.flag false]) := by
        rw [htold, ht, unregister_fst hr]
        rfl
      refine .spent hagain (fun b hb => ?_) ?_
      · exact (List.mem_append.mp hb).elim (hl b) List.mem_singleton.mp
      · rw [hspend, getElem?_spend_self, hr]
        rfl
  · refine h.keep ?_ fun s hs => ?_
    · rw [Minutes.told_append]
      simp [Minutes.told, hm]
    · rw [hspend, getElem?_spend_ne hm, hs]

theorem act (h : Awaits n r after w) {a : Action} (ha : a.isFiling = true) :
    Awaits n r (after ++ [(a, (w.act a).1)]) (w.act a).2 := by
  by_cases hu : ∃ m, a = .unregister m
  · obtain ⟨m, rfl⟩ := hu
    exact h.unregister m
  · have hn : ∀ m, a ≠ .unregister m := fun m hm => hu ⟨m, hm⟩
    refine h.keep ?_ fun s hs => ?_
    · rw [Minutes.told_append, Minutes.told_of_ne n _ hn, List.append_nil]
    · obtain ⟨ts, hts⟩ := registrations_act (w := w) ha hn
      rw [← hts]
      exact getElem?_append_of_some hs ts

/-- Once somebody has tried, nothing is left to do. -/
theorem again (h : Awaits n r after w) {first : Answer} {later : List Answer}
    (ht : Minutes.told n after = first :: later) :
    first = .flag r.actions.isSome ∧ (∀ b ∈ later, b = .flag false) ∧
      w.act (.unregister n) = (.flag false, w) := by
  cases h with
  | standing ht' _ => cases ht'.symm.trans ht
  | spent ht' hl hr =>
    obtain ⟨rfl, rfl⟩ := List.cons.inj (ht'.symm.trans ht)
    exact ⟨rfl, hl, act_unregister (unregister_spent hr)⟩

/-- Until somebody has tried, the registration stands as it was made. -/
theorem next (h : Awaits n r after w) (ht : Minutes.told n after = []) :
    w.registrations[n]? = some r := by
  cases h with
  | standing _ hr => exact hr
  | spent ht' _ _ => cases ht.symm.trans ht'

end Awaits

/-- What becomes of a registration since it was made. -/
theorem Chronicle.awaits {before after : Minutes} {a : Action} {r : Registration}
    (h : Chronicle (before ++ (a, .made n) :: after) w)
    (hmade : ∀ v : Network, (v.act a).1 = .made n → (v.act a).2.registrations[n]? = some r) :
    Awaits n r after w := by
  refine h.since (P := Awaits n r) (fun {v b} _ _ hp => ?_) (fun _ ha hP => hP.act ha)
    fun hv hP => hP.keep rfl fun s hs => ?_
  · obtain ⟨rfl, hb⟩ := Prod.mk.inj hp
    exact .standing rfl (hmade v hb.symm)
  · rw [(Registry.mk.inj hv).1, hs]

theorem made_register (v : Network) {hooks : List Retraction}
    (h : (v.act (.register d descriptor hooks)).1 = .made n) :
    (v.act (.register d descriptor hooks)).2.registrations[n]? =
      some ⟨descriptor, d, some (.remove :: hooks.reverse)⟩ := by
  change (v.attemptMade (v.register d descriptor hooks)).1 = _ at h
  show (v.attemptMade (v.register d descriptor hooks)).2.registrations[n]? = _
  rw [register] at h ⊢
  simp only [Retraction.chain_chainAll] at h ⊢
  -- A dispatcher that is gone takes no entry, but the registration is made all the same.
  cases hx : v.dispatchers[d]? with
  | none =>
    rw [hx] at h
    obtain rfl := Answer.made.inj h
    exact List.getElem?_concat_length
  | some x =>
    rw [hx] at h
    simp only at h ⊢
    cases hy : x.register ⟨v.registrations.length, descriptor⟩ with
    | error e =>
      rw [hy] at h
      cases h
    | ok y =>
      rw [hy] at h
      obtain rfl := Answer.made.inj h
      exact List.getElem?_concat_length

theorem made_keep (v : Network) {hooks : List Retraction}
    (h : (v.act (.keep d descriptor hooks)).1 = .made n) :
    (v.act (.keep d descriptor hooks)).2.registrations[n]? =
      some ⟨descriptor, d, if hooks.isEmpty then none else some hooks.reverse⟩ := by
  obtain rfl := Answer.made.inj h
  rw [← Retraction.chainAll_eq]
  exact List.getElem?_concat_length

/-! ## Where a descriptor stands -/

/-- Only making a dispatcher changes how many there are. -/
theorem length_dispatchers_act {a : Action} (ha : a.isFiling = true) (hn : a ≠ .openDispatcher) :
    (w.act a).2.dispatchers.length = w.dispatchers.length := by
  by_cases hu : ∃ m, a = .unregister m
  · obtain ⟨m, rfl⟩ := hu
    show (w.unregister m).2.dispatchers.length = _
    rcases dispatchers_unregister_cases w m with ⟨r, _, -, -, -, hd⟩ | ⟨-, hd⟩
    · rw [hd, List.length_modify]
    · rw [hd]
  · obtain ⟨_, d, f, -, hd⟩ := act_changes ha (fun m hm => hu ⟨m, hm⟩) hn
    rw [hd, List.length_modify]

/-- The dispatchers were made in the order of their numbers. -/
theorem Chronicle.opened {ms : Minutes} (h : Chronicle ms w) :
    ms.opened = List.range w.dispatchers.length := by
  induction h with
  | fresh => rfl
  | @filed ms w h a ha ih =>
    rw [Minutes.opened_append, ih]
    by_cases hn : a = .openDispatcher
    · subst hn
      show _ = List.range (w.dispatchers ++ [({} : Dispatcher)]).length
      rw [List.length_append, List.length_singleton, List.range_succ]
      rfl
    · rw [length_dispatchers_act ha hn]
      cases a <;> first | exact absurd rfl hn | exact List.append_nil _
  | @idle ms w w' h hw ih =>
    have hl := congrArg List.length (Registry.mk.inj hw).2
    rw [List.length_map, List.length_map] at hl
    rw [ih, hl]

/-- A descriptor that nobody has taken back stands at its dispatcher, unless that is gone. -/
theorem Chronicle.mem_entries {before after : Minutes} {hs : List Retraction}
    (h : Chronicle (before ++ (.register d descriptor hs, .made n) :: after) w)
    (hd : (.openDispatcher, .made d) ∈ before) (ht : Minutes.told n after = []) :
    ∃ x, w.dispatchers[d]? = some x ∧ x.Numbered w.registrations.length ∧
      (x.gone = false → ⟨n, descriptor⟩ ∈ x.entries) := by
  have hopened := h.opened
  rw [List.append_cons, Minutes.opened_append, Minutes.opened_append] at hopened
  have hmem : d ∈ Minutes.opened before := List.mem_filterMap.mpr ⟨_, hd, rfl⟩
  have hlt : d < w.dispatchers.length := by
    rw [← List.mem_range, ← hopened]
    exact List.mem_append_left _ (List.mem_append_left _ hmem)
  -- No dispatcher is made twice, so what stands at this one is not forgotten later.
  have hafter : d ∉ Minutes.opened after := fun hm => by
    have hnodup := hopened ▸ List.nodup_range
    exact (List.nodup_append.mp hnodup).2.2 d (List.mem_append_left _ hmem) d hm rfl
  obtain ⟨x, hx⟩ : ∃ x, w.dispatchers[d]? = some x := ⟨_, List.getElem?_eq_getElem hlt⟩
  have hfiled := h.filed_dispatchers d x hx
  refine ⟨x, hx, hfiled.numbered, fun hg => ?_⟩
  rw [hfiled.standing hg, List.append_cons, Minutes.standing_append, standing_append_one]
  refine Minutes.mem_foldl_post ?_ ht hafter
  rw [Minutes.post, if_pos rfl]
  exact List.mem_append_right _ List.mem_cons_self

/-! ## The theorem -/

/-- **A registration is taken back once.** A descriptor is registered with a dispatcher that there
is, together with hooks, and then whatever else is registered and taken back. Of those who took this
registration back the first was told so and all others were not; whoever tries it again is not
either, and nothing happens. If nobody has tried yet, the next one who does is told so: this very
descriptor goes, all others stay where they are, and then the hooks run, each once and the last one
first, so that none of them counts the descriptor any more. If nobody holds the dispatcher any more,
the hooks run all the same. A descriptor that was not registered has its hooks run in the same way,
and without hooks there is nothing to take back. -/
theorem retracts_once {before after : Minutes} {a : Action}
    (h : Chronicle (before ++ (a, .made n) :: after) w) :
    (a = .register d descriptor (hooks.map .ofHook) → (.openDispatcher, .made d) ∈ before →
      (∀ first later, Minutes.told n after = first :: later →
        first = .flag true ∧ (∀ b ∈ later, b = .flag false) ∧
          w.act (.unregister n) = (.flag false, w)) ∧
      (Minutes.told n after = [] → ∃ x, w.dispatchers[d]? = some x ∧
        (x.gone = true → w.act (.unregister n) = (.flag true, (w.spent n).ran hooks)) ∧
        (x.gone = false → ∃ pre post, x.entries = pre ++ ⟨n, descriptor⟩ :: post ∧
          w.act (.unregister n) = (.flag true, ((w.spent n).modifyDispatcher d fun x =>
            { x with entries := pre ++ post }).ran hooks)))) ∧
    (a = .keep d descriptor (hooks.map .ofHook) →
      (∀ first later, Minutes.told n after = first :: later →
        first = .flag (!hooks.isEmpty) ∧ (∀ b ∈ later, b = .flag false) ∧
          w.act (.unregister n) = (.flag false, w)) ∧
      (Minutes.told n after = [] → w.act (.unregister n) =
        if hooks.isEmpty then (.flag false, w) else (.flag true, (w.spent n).ran hooks))) := by
  refine ⟨?_, ?_⟩
  · -- A registered descriptor: its chain is the entry itself and then the hooks.
    rintro rfl hd
    have hr := h.awaits (made_register · ·)
    refine ⟨fun _ _ => hr.again, fun ht => ?_⟩
    obtain ⟨x, hx, hnum, hmem⟩ := h.mem_entries hd ht
    have hw := act_unregister (unregister_registered (hr.next ht))
    refine ⟨x, hx, fun hg => ?_, fun hg => ?_⟩
    · -- From a dispatcher that is gone nothing is taken out any more.
      have hsame : w.dispatchers.modify d (Dispatcher.without n) = w.dispatchers :=
        modify_eq_of_eq fun y hy => by
          obtain rfl := Option.some.inj (hx.symm.trans hy)
          exact Dispatcher.without_of_gone hg n
      rw [hw, modifyDispatcher, spent, hsame]
    · obtain ⟨pre, post, he⟩ := List.append_of_mem (hmem hg)
      have hout : x.without n = { x with entries := pre ++ post } := by
        rw [Dispatcher.without_of_held hg, ← hnum.remove he]
        rfl
      refine ⟨pre, post, he, ?_⟩
      rw [hw, modifyDispatcher, modifyDispatcher, spent, modify_eq_set hx, modify_eq_set hx, hout]
  · -- A kept one has the hooks only, so without any it is spent from the beginning.
    rintro rfl
    have hr := h.awaits (made_keep · ·)
    cases hooks with
    | nil => exact ⟨fun _ _ => hr.again, fun ht => act_unregister (unregister_spent (hr.next ht))⟩
    | cons hook hooks =>
      exact ⟨fun _ _ => hr.again, fun ht => act_unregister (unregister_kept (hr.next ht))⟩

/-- A descriptor goes with its two hooks. Its key is used again, and the old registration has no
power over the new one. -/
theorem retracts_once_namesake :
    let lens : Descriptor :=
      { method := "m", key := "k", handler := { kind := .request, payload := .any, label := "h" },
        selector := .ofLanguage "lean", paramsType := "value" }
    let hooks : List Hook := [("first", some (0, "m")), ("last", none)]
    let w := run {} [.openDispatcher, .register 0 lens (hooks.map .ofHook)]
    let v := run w [.unregister 0, .register 0 lens []]
    (∃ x pre post, w.dispatchers[0]? = some x ∧ x.entries = pre ++ ⟨0, lens⟩ :: post ∧
      w.act (.unregister 0) = (.flag true, ((w.spent 0).modifyDispatcher 0 fun x =>
        { x with entries := pre ++ post }).ran hooks)) ∧
    v.act (.unregister 0) = (.flag false, v) := by
  intro lens hooks w v
  have hw : Chronicle ([(.openDispatcher, .made 0)] ++
      (.register 0 lens (hooks.map .ofHook), .made 0) :: []) w :=
    Chronicle.fresh.transcript
      [.openDispatcher, .register 0 lens (hooks.map .ofHook)] (by decide)
  have hv : Chronicle ([(.openDispatcher, .made 0)] ++
      (.register 0 lens (hooks.map .ofHook), .made 0) ::
        transcript w [.unregister 0, .register 0 lens []]) v :=
    hw.transcript [.unregister 0, .register 0 lens []] (by decide)
  refine ⟨?_, ?_⟩
  · -- The first registration: its retraction runs both hooks.
    obtain ⟨x, hx, -, hx'⟩ :=
      ((retracts_once hw).1 rfl List.mem_cons_self).2 rfl
    have hg : (w.dispatchers[0]?).all (!·.gone) = true := by decide +kernel
    rw [hx, Option.all_some, Bool.not_eq_true'] at hg
    obtain ⟨pre, post, he, hact⟩ := hx' hg
    exact ⟨x, pre, post, hx, he, hact⟩
  · -- It has been retracted since, and the descriptor that took its place is not touched.
    obtain ⟨-, -, hact⟩ :=
      ((retracts_once hv).1 rfl List.mem_cons_self).1 _ _ rfl
    exact hact

end Network

end Parley

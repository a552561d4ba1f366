import Mathlib.Data.List.Induction
import Parley.Proofs.Usage

/-!
# Spacing

The numbers of requests come round again, yet no two requests that wait at the same time have the
same one. What keeps them apart is not the range of the numbers alone, but that no request waits
while the numbers come round once: the number of a request is given again with the `2 ^ 64`-th
request after it, and with no earlier one.

- `Log.Spaced`: no request waits for that long.
- `Link.NeverDisplaces`: the table only grows when a request is started.
- `Link.spaced_iff`: one holds of the log if and only if the other holds of the uses.
- `Link.mem_pending_iff`: then the table holds all that is awaited.
- `Link.numbers_apart`: **identifiers do not collide when the counter wraps around**.
-/

namespace Parley.Link

/-- While a request was awaited, fewer than `2 ^ 64` other ones were started. -/
def Log.Spaced (h : Log) : Prop :=
  ∀ (before during after : Log) (waiter : Nat) (method : String) (params : Json) (id : Id),
    h = before ++ (.start waiter method params, .ok (.started id)) :: (during ++ after) →
    (∀ e ∈ during, e.1.settles id = false) → (Log.started during).length < 2 ^ 64

/-- No request that is started takes the place of one that waits: its identifier is not in the
table, to which it is added. -/
def NeverDisplaces (l : Link) (uses : List Use) : Prop :=
  ∀ us waiter method params vs id l', uses = us ++ .start waiter method params :: vs →
    (l.run us).start waiter method params = some (id, l') →
    (l.run us).pending.lookup id = none ∧ l'.pending = (l.run us).pending ++ [(id, waiter)]

variable {c : Counter} {h : Log} {l l' : Link} {u : Use} {r : Except CallError Result}
  {uses : List Use}

namespace Log

theorem Spaced.of_append {g : Log} (hs : (h ++ g).Spaced) : h.Spaced := by
  intro before during after waiter method params id hh hd
  exact hs before during (after ++ g) waiter method params id (by simp [hh]) hd

/-- If there are not so many requests at all, none waits for that long. -/
theorem Spaced.of_length (hn : h.started.length < 2 ^ 64) : h.Spaced := by
  rintro before during after waiter method params id rfl -
  refine Nat.lt_of_le_of_lt (List.Sublist.length_le (List.Sublist.filterMap _ ?_)) hn
  exact ((List.sublist_append_left during after).cons _).trans (List.sublist_append_right ..)

/-- The request that was started first after others has the next number. -/
theorem started_split (before during : Log) (waiter : Nat) (method : String) (params : Json)
    (id : Id) : started (before ++ (.start waiter method params, .ok (.started id)) :: during) =
      before.started ++ id :: started during := by
  simp [started, started?]

end Log

/-! ## What the place in the log says about the number -/

namespace Kept

/-- A request has the number of its place. -/
theorem nth_started (hK : Kept c h l) {ids ids' : List Id} {id : Id}
    (hh : h.started = ids ++ id :: ids') : id = c.nth ids.length := by
  have hget := congrArg (·[ids.length]?) (hh.symm.trans hK.ids)
  have hlt : ids.length < h.started.length := by simp [hh]
  simpa [hlt] using hget

/-- The next request has the next number. -/
theorem nth_next (hK : Kept c h l) : l.counter.next.1 = c.nth h.started.length := by
  rw [hK.counter]
  rfl

/-- A number that is in the table would come round too early. -/
theorem lookup_next (hK : Kept c h l) {waiter : Nat} {method : String} {params : Json}
    (hs : Log.Spaced (h ++ [(.start waiter method params, .ok (.started l.counter.next.1))])) :
    l.pending.lookup l.counter.next.1 = none := by
  refine List.lookup_eq_none_iff.mpr fun p hp => bne_iff_ne.mpr fun hid => ?_
  obtain ⟨before, during, method', params', hh, hd⟩ := hK.awaits hp
  -- The new request is one of those that are started while the other one waits.
  have hlt := hs before
    (during ++ [(.start waiter method params, .ok (.started l.counter.next.1))]) []
    p.2 method' params' p.1 (by simp [hh])
    (List.forall_mem_append.mpr ⟨hd, by simp [Use.settles]⟩)
  have hstarted : h.started = _ := (congrArg Log.started hh).trans (Log.started_split ..)
  have hlen : h.started.length = before.started.length + (Log.started during).length + 1 := by
    rw [hstarted, List.length_append, List.length_cons, Nat.add_assoc]
  refine Counter.nth_ne (c := c) (j := before.started.length) (k := h.started.length) ?_ ?_ ?_
  · omega
  · simp only [Log.started_concat, Log.started?, Option.toList, List.length_append,
      List.length_singleton] at hlt
    omega
  · rw [← hK.nth_started hstarted, ← hK.nth_next, hid]

/-- What is awaited stays in the table, if nothing takes its place. -/
theorem mem_step (hall : ∀ {id waiter}, h.Awaits id waiter → (id, waiter) ∈ l.pending)
    (hd : Does l u r l') (hnew : ∀ id, r = .ok (.started id) → l.pending.lookup id = none)
    {id : Id} {waiter : Nat} (ha : Log.Awaits (h ++ [(u, r)]) id waiter) :
    (id, waiter) ∈ l'.pending := by
  rw [Log.awaits_concat] at ha
  rcases ha with ⟨method, params, he⟩ | ⟨ha, hs⟩
  · obtain ⟨rfl, rfl⟩ := Prod.mk.inj he
    cases hd with
    | started => exact List.mem_append_right _ (List.mem_singleton.mpr rfl)
  · have hm := hall ha
    cases hd with
    | queued | refused | taken | starved => exact hm
    | started =>
      rw [without_of_lookup (hnew _ rfl)]
      exact List.mem_append_left _ hm
    | removed hu =>
      rw [Use.settles_of_removed hu, decide_eq_false_iff_not] at hs
      exact List.mem_filter.mpr ⟨hm, bne_iff_ne.mpr fun he => hs he.symm⟩
    | closed => cases hs

end Kept

/-! ## What is awaited and what is in the table -/

theorem kept_run (c : Counter) (uses : List Use) :
    Kept c ((fresh c).log uses) ((fresh c).run uses) :=
  (Kept.fresh c).run uses

theorem use_start {id : Id} {waiter : Nat} {method : String} {params : Json}
    (hs : l.start waiter method params = some (id, l')) :
    l.use (.start waiter method params) = (.ok (.started id), l') := by
  rw [use, hs]

theorem NeverDisplaces.of_append {us vs : List Use} (hn : NeverDisplaces l (us ++ vs)) :
    NeverDisplaces l us := by
  intro us' waiter method params vs' id l' hus
  exact hn us' waiter method params (vs' ++ vs) id l' (by simp [hus])

/-- What a request that is started finds in the table. -/
theorem NeverDisplaces.lookup {id : Id} (hn : NeverDisplaces l (uses ++ [u]))
    (hu : ((l.run uses).use u).1 = .ok (.started id)) :
    (l.run uses).pending.lookup id = none := by
  have hd := does_use (l.run uses) u
  rw [hu] at hd
  generalize hv : ((l.run uses).use u).2 = v at hd
  generalize hr : (Except.ok (Result.started id) : Except CallError Result) = r at hd
  cases hd with
  | started ho waiter method params =>
    obtain rfl := Result.started.inj (Except.ok.inj hr)
    exact (hn uses waiter method params [] _ _ rfl (by rw [start, if_pos ho])).1
  | _ => simp at hr

/-- **The table holds what is awaited**, if nothing takes the place of anything. -/
theorem mem_pending_iff (hn : NeverDisplaces (fresh c) uses) {id : Id} {waiter : Nat} :
    (id, waiter) ∈ ((fresh c).run uses).pending ↔ ((fresh c).log uses).Awaits id waiter := by
  refine ⟨(kept_run c uses).awaits, fun ha => ?_⟩
  induction uses using List.reverseRecOn generalizing id waiter with
  | nil => exact absurd ha (Log.not_awaits_nil id waiter)
  | append_singleton us u ih =>
    rw [run_append]
    rw [log_append] at ha
    exact Kept.mem_step (ih hn.of_append) (does_use _ u) (fun _ => hn.lookup) ha

/-! ## Both are the same -/

theorem neverDisplaces_of_spaced (hs : ((fresh c).log uses).Spaced) :
    NeverDisplaces (fresh c) uses := by
  rintro us waiter method params vs id l' rfl hstart
  obtain ⟨-, rfl, rfl⟩ := start_eq_some hstart
  rw [log_append, log, use_start hstart, List.append_cons] at hs
  have hnone := (kept_run c us).lookup_next hs.of_append
  exact ⟨hnone, by rw [without_of_lookup hnone]⟩

/-- A log is cut where its uses are. -/
theorem log_eq_append {g : Log} (hh : l.log uses = h ++ g) :
    ∃ us vs, uses = us ++ vs ∧ l.log us = h ∧ (l.run us).log vs = g := by
  induction h generalizing l uses with
  | nil => exact ⟨[], uses, rfl, rfl, hh⟩
  | cons e h ih =>
    cases uses with
    | nil => simp [log] at hh
    | cons u uses =>
      obtain ⟨rfl, hrest⟩ := List.cons.inj hh
      obtain ⟨us, vs, rfl, hus, hvs⟩ := ih hrest
      exact ⟨u :: us, vs, rfl, congrArg (_ :: ·) hus, hvs⟩

/-- Up to where so many requests were started, and no further. -/
theorem Log.split_started {n : Nat} (hn : n < h.started.length) :
    ∃ (g : Log) (e : _) (id : Id) (g' : Log),
      h = g ++ e :: g' ∧ g.started.length = n ∧ Log.started? e = some id := by
  induction h generalizing n with
  | nil => cases hn
  | cons e h ih =>
    cases he : Log.started? e with
    | none =>
      have hskip (h : Log) : Log.started (e :: h) = h.started := List.filterMap_cons_none he
      rw [hskip] at hn
      obtain ⟨g, e', id, g', rfl, hg, he'⟩ := ih hn
      exact ⟨e :: g, e', id, g', rfl, by rw [hskip, hg], he'⟩
    | some id =>
      have hcons (h : Log) : Log.started (e :: h) = id :: h.started := List.filterMap_cons_some he
      cases n with
      | zero => exact ⟨[], e, id, h, rfl, rfl, he⟩
      | succ n =>
        rw [hcons, List.length_cons] at hn
        obtain ⟨g, e', id', g', rfl, hg, he'⟩ := ih (Nat.lt_of_succ_lt_succ hn)
        exact ⟨e :: g, e', id', g', rfl, by rw [hcons, List.length_cons, hg], he'⟩

theorem Log.result_of_started {e : Use × Except CallError Result} {id : Id}
    (he : Log.started? e = some id) : e.2 = .ok (.started id) := by
  unfold Log.started? at he
  split at he
  · next hr => rw [hr, Option.some.inj he]
  · cases he

/-- When the numbers have come round while a request waits, its place is taken. -/
theorem spaced_of_neverDisplaces (hn : NeverDisplaces (fresh c) uses) :
    ((fresh c).log uses).Spaced := by
  intro before during after waiter method params id hh hd
  refine Nat.lt_of_not_ge fun hlong => ?_
  obtain ⟨n, hround⟩ : ∃ n, n + 1 = 2 ^ 64 := ⟨2 ^ 64 - 1, by omega⟩
  obtain ⟨g, e, id', g', rfl, hg, he⟩ := Log.split_started (n := n) (h := during) (by omega)
  -- The link just before the number is given again.
  have hsplit : (fresh c).log uses =
      (before ++ (.start waiter method params, .ok (.started id)) :: g) ++ e :: (g' ++ after) := by
    simp [hh]
  obtain ⟨us, vs, rfl, hus, hvs⟩ := log_eq_append hsplit
  cases vs with
  | nil => simp [log] at hvs
  | cons u vs =>
    obtain ⟨rfl, -⟩ := List.cons.inj hvs
    rw [List.append_cons] at hn
    have hmem : (id, waiter) ∈ ((fresh c).run us).pending := by
      refine (mem_pending_iff hn.of_append.of_append).mpr ?_
      exact ⟨before, g, method, params, hus, fun e he => hd e (List.mem_append_left _ he)⟩
    have hnone := hn.of_append.lookup (Log.result_of_started he)
    have hstarted : ((fresh c).log us).started = before.started ++ id :: g.started := by
      rw [hus, Log.started_split]
    have hlast : ((fresh c).log (us ++ [u])).started =
        ((fresh c).log us).started ++ id' :: [] := by
      rw [log_append, log, log, Log.started_concat, he]
      rfl
    have hid : id' = id := by
      rw [(kept_run c us).nth_started hstarted, (kept_run c (us ++ [u])).nth_started hlast]
      refine ((Counter.nth_inj c ?_).mpr ?_).symm
      · simp [hstarted]
      · rw [hstarted, List.length_append, List.length_cons, hg, hround]
        simp
    subst hid
    exact absurd (List.lookup_eq_none_iff.mp hnone _ hmem) (by simp)

theorem spaced_iff : ((fresh c).log uses).Spaced ↔ NeverDisplaces (fresh c) uses :=
  ⟨neverDisplaces_of_spaced, spaced_of_neverDisplaces⟩

/-- **Identifiers do not collide when the counter wraps around.** Wherever a counter stands, the
identifier that it gives after `n` others is the sum, reduced to the range of the integers by two's
complement, and two of them are the same if and only if a multiple of `2 ^ 64` lies between their
places. The requests of a link have these identifiers in order. However the link is used, no request
that is started finds its identifier in the table if and only if, while any request was awaited,
fewer than `2 ^ 64` other ones were started. -/
theorem numbers_apart (c : Counter) :
    (∀ m n, n < m → ∃ v : Int64, (c.take m).1[n]? = some (.number v) ∧
      v.toInt = (c.value.toInt + n).bmod (2 ^ 64)) ∧
    (∀ m j k, j < k → k < m → ((c.take m).1[j]? = (c.take m).1[k]? ↔ 2 ^ 64 ∣ k - j)) ∧
    ∀ uses, ((fresh c).log uses).started = (c.take ((fresh c).log uses).started.length).1 ∧
      (((fresh c).log uses).Spaced ↔ NeverDisplaces (fresh c) uses) := by
  refine ⟨fun m n hn => ?_, fun m j k hjk hk => ?_, fun uses => ⟨?_, spaced_iff⟩⟩
  · exact ⟨(c.after n).value, c.getElem?_take hn, c.toInt_value_after n⟩
  · rw [c.getElem?_take (Nat.lt_trans hjk hk), c.getElem?_take hk, Option.some.injEq]
    exact c.nth_inj (Nat.le_of_lt hjk)
  · rw [Counter.take_eq]
    exact (kept_run c uses).ids

/-- The least integer follows the greatest one, and both requests wait. -/
theorem numbers_apart_greatest :
    let c : Counter := ⟨Int64.maxValue⟩
    (c.take 2).1 = [.number Int64.maxValue, .number Int64.minValue] ∧
      (c.take 2).1[0]? ≠ (c.take 2).1[1]? ∧
      NeverDisplaces (fresh c) [.start 0 "a" .null, .start 1 "b" .null] := by
  intro c
  obtain ⟨-, hsame, huses⟩ := numbers_apart c
  refine ⟨by decide, ?_, ?_⟩
  · exact mt (hsame 2 0 1 (by decide) (by decide)).mp (by decide)
  · exact (huses _).2.mp (Log.Spaced.of_length (by decide))

end Parley.Link

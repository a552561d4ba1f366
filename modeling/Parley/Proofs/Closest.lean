import Parley.Proofs.Routed

/-!
# The closest of several

Of the items that match a document a request goes to the one that matches most closely, and of
several that match equally closely to the first. How closely an item matches is up to those of its
filters that match: one that does not match counts for nothing, whatever it names.

- `Selector.Scores`: how closely a selector matches, `Selector.best?_eq_some`: what is computed.
- `IsClosest`: the first of those that match most closely.
- `closest_eq_some`: the search for it, from any item found so far.
- `chosen_eq_some`, `chosen_filters`, `chosen_congr`: what is chosen, and what it depends on.
- `chooses_closest`: the whole.
-/

namespace Parley

/-! ## How closely a selector matches -/

namespace Selector

/-- Whether a number is the greatest specificity of a filter that a document matches. -/
structure Scores (s : Selector) (d : Document) (n : Nat) : Prop where
  attained : ∃ g ∈ s, g.accepts d = true ∧ g.specificity = n
  greatest : ∀ g ∈ s, g.accepts d = true → g.specificity ≤ n

theorem best?_eq_some {s : Selector} {d : Document} {n : Nat} :
    s.best? d = some n ↔ s.Scores d n := by
  rw [best?, List.max?_eq_some_iff]
  simp only [List.mem_map, List.mem_filter, forall_exists_index, and_imp]
  constructor
  · rintro ⟨⟨g, ⟨hg, ha⟩, hn⟩, hle⟩
    exact ⟨⟨g, hg, ha, hn⟩, fun g hg ha => hle _ g hg ha rfl⟩
  · rintro ⟨⟨g, hg, ha, hn⟩, hle⟩
    refine ⟨⟨g, ⟨hg, ha⟩, hn⟩, ?_⟩
    rintro _ g hg ha rfl
    exact hle g hg ha

instance (s : Selector) (d : Document) (n : Nat) : Decidable (s.Scores d n) :=
  decidable_of_iff _ best?_eq_some

theorem accepts_iff {s : Selector} {d : Document} :
    s.accepts d = true ↔ ∃ g ∈ s, g.accepts d = true := List.any_eq_true

/-- Only the filters that match count, in whichever order they stand. -/
theorem best?_congr {s t : Selector} {d : Document}
    (h : (s.filter (·.accepts d)).Perm (t.filter (·.accepts d))) : s.best? d = t.best? d := by
  have scores : ∀ {s t : Selector}, (s.filter (·.accepts d)).Perm (t.filter (·.accepts d)) →
      ∀ n, s.Scores d n → t.Scores d n := by
    rintro s t h n ⟨⟨g, hg, ha, hn⟩, hle⟩
    have hm : ∀ g : Filter, g.accepts d = true → (g ∈ s ↔ g ∈ t) := fun g ha => by
      simpa [ha] using h.mem_iff (a := g)
    exact ⟨⟨g, (hm g ha).mp hg, ha, hn⟩, fun g hg ha => hle g ((hm g ha).mpr hg) ha⟩
  refine Option.ext fun n => ?_
  rw [best?_eq_some, best?_eq_some]
  exact ⟨scores h n, scores h.symm n⟩

end Selector

/-! ## The search -/

section choice

variable {α : Type} {f g : α → Selector} {d : Document} {ls : Languages} {params : Json}
  {xs ys : List α}

/-- The items that match with a score. -/
def scoring (f : α → Selector) (d : Document) (n : Nat) (xs : List α) : List α :=
  xs.filter fun x => (f x).Scores d n

/-- Whether an item of a list matches most closely, and is the first one that does. -/
def IsClosest (f : α → Selector) (d : Document) (xs : List α) (x : α) : Prop :=
  ∃ n before after, xs = before ++ x :: after ∧ (f x).Scores d n ∧
    (∀ y ∈ before, ∀ m, (f y).Scores d m → m < n) ∧ ∀ y ∈ after, ∀ m, (f y).Scores d m → m ≤ n

theorem scoring_cons_of_none {n : Nat} {x : α} (h : (f x).best? d = none) :
    scoring f d n (x :: xs) = scoring f d n xs :=
  List.filter_cons_of_neg (by simp [← Selector.best?_eq_some, h])

theorem scoring_cons_of_eq {n : Nat} {x : α} (h : (f x).best? d = some n) :
    scoring f d n (x :: xs) = x :: scoring f d n xs :=
  List.filter_cons_of_pos (by simp [← Selector.best?_eq_some, h])

theorem scoring_cons_of_ne {m n : Nat} {x : α} (h : (f x).best? d = some m) (hm : m ≠ n) :
    scoring f d n (x :: xs) = scoring f d n xs :=
  List.filter_cons_of_neg (by simp [← Selector.best?_eq_some, h, hm])

/-- The search ends with the item found so far, unless one that follows scores more. Then it ends
with the first of those that score most. -/
theorem closest_eq_some {top : Option (Nat × α)} {n : Nat} {x : α} :
    closest f d top xs = some (n, x) ↔ (∀ y ∈ xs, ∀ m, (f y).Scores d m → m ≤ n) ∧
      (top = some (n, x) ∨
        top.all (fun t => t.1 < n) = true ∧ (scoring f d n xs).head? = some x) := by
  induction xs generalizing top with
  | nil => simp [closest, scoring]
  | cons z zs ih =>
    simp only [← Selector.best?_eq_some] at ih ⊢
    rw [closest, List.forall_mem_cons]
    split
    · next hs => simp [ih, scoring_cons_of_none hs, hs]
    · next s hs =>
      have hz : (∀ m, (f z).best? d = some m → m ≤ n) ↔ s ≤ n := by simp [hs]
      -- If the new item is the first that scores most, it is one that the search takes.
      have front : s ≤ n → ((scoring f d n (z :: zs)).head? = some x ↔
          (s = n ∧ z = x) ∨ s < n ∧ (scoring f d n zs).head? = some x) := fun hle => by
        rcases Nat.eq_or_lt_of_le hle with rfl | hlt
        · simp [scoring_cons_of_eq hs]
        · simp [scoring_cons_of_ne hs (Nat.ne_of_lt hlt), hlt, Nat.ne_of_lt hlt]
      rw [hz]
      split
      · simp only [ih, Option.some.injEq, Prod.mk.injEq, Option.all_some, Option.all_none,
          decide_eq_true_eq]
        grind
      · next b y =>
        split
        · simp only [ih, Option.some.injEq, Prod.mk.injEq, Option.all_some, decide_eq_true_eq]
          grind
        · simp only [ih, Option.some.injEq, Prod.mk.injEq, Option.all_some, decide_eq_true_eq]
          grind

/-- The closest item is the first of those that score most. -/
theorem isClosest_iff {x : α} : IsClosest f d xs x ↔
    ∃ n, (∀ y ∈ xs, ∀ m, (f y).Scores d m → m ≤ n) ∧ (scoring f d n xs).head? = some x := by
  refine exists_congr fun n => ?_
  rw [scoring, List.head?_filter, List.find?_eq_some_iff_append]
  simp only [decide_eq_true_eq, Bool.not_eq_true', decide_eq_false_iff_not]
  constructor
  · rintro ⟨before, after, rfl, hx, hb, ha⟩
    refine ⟨fun y hy m hm => ?_, hx, before, after, rfl, fun y hy hn => ?_⟩
    · rcases List.mem_append.mp hy with hy | hy
      · exact Nat.le_of_lt (hb y hy m hm)
      · rcases List.mem_cons.mp hy with rfl | hy
        · obtain ⟨g, hg, hacc, rfl⟩ := hm.attained
          exact hx.greatest g hg hacc
        · exact ha y hy m hm
    · exact Nat.lt_irrefl n (hb y hy n hn)
  · rintro ⟨hle, hx, before, after, rfl, hb⟩
    refine ⟨before, after, rfl, hx, fun y hy m hm => ?_, fun y hy m hm => hle y (by simp [hy]) m hm⟩
    refine Nat.lt_of_le_of_ne (hle y (by simp [hy]) m hm) ?_
    rintro rfl
    exact hb y hy hm

/-- Items that do not match cannot be the closest, and do not keep others from it. -/
theorem isClosest_matching {x : α} : IsClosest f d (matching f d xs) x ↔ IsClosest f d xs x := by
  have matches_of_scores : ∀ {y n}, (f y).Scores d n → (f y).accepts d = true := fun h =>
    Selector.accepts_iff.mpr (h.attained.imp fun _ h => ⟨h.1, h.2.1⟩)
  have hscoring : ∀ n, scoring f d n (matching f d xs) = scoring f d n xs := fun n => by
    rw [scoring, matching, List.filter_filter]
    exact List.filter_congr fun y _ => Bool.and_eq_left_iff_imp.mpr fun h =>
      matches_of_scores (of_decide_eq_true h)
  simp only [isClosest_iff, hscoring]
  refine exists_congr fun n => and_congr_left fun _ => ?_
  simp only [matching, List.mem_filter, and_imp]
  exact ⟨fun h y hy m hm => h y hy (matches_of_scores hm) m hm, fun h y hy _ => h y hy⟩

/-! ## What is chosen -/

/-- The closest of the items is chosen. -/
theorem chosen_eq_some (hd : ls.identify params = some d) {x : α} :
    chosen f ls params xs = some x ↔ IsClosest f d xs x := by
  simp only [chosen, hd, Option.map_eq_some_iff, Prod.exists, exists_eq_right, closest_eq_some,
    reduceCtorEq, Option.all_none, true_and, false_or, isClosest_iff]

/-- For the choice nothing counts but which items have which score, and the order of those with the
same one. -/
theorem chosen_congr (h : ∀ d, ls.identify params = some d → ∀ n,
    scoring f d n xs = scoring g d n ys) : chosen f ls params xs = chosen g ls params ys := by
  cases hd : ls.identify params with
  | none => simp only [chosen, hd]
  | some d =>
    have bound : ∀ {g : α → Selector} {ys : List α} {n : Nat},
        (∀ y ∈ ys, ∀ m, (g y).Scores d m → m ≤ n) ↔ ∀ m y, y ∈ scoring g d m ys → m ≤ n := by
      simp only [scoring, List.mem_filter, decide_eq_true_eq, and_imp]
      exact fun {g ys n} => ⟨fun h m y hy hm => h y hy m hm, fun h y hy m hm => h m y hy hm⟩
    refine Option.ext fun x => ?_
    simp only [chosen_eq_some hd, isClosest_iff, bound, h d hd]

/-- Items that do not match may come and go. -/
theorem chosen_insert {x : α}
    (h : ∀ d, ls.identify params = some d → ∀ g ∈ f x, g.accepts d = false)
    (before after : List α) :
    chosen f ls params (before ++ x :: after) = chosen f ls params (before ++ after) :=
  chosen_congr fun d hd n => by
    have hx : (f x).best? d = none :=
      Selector.best?_eq_none.mpr (List.any_eq_false.mpr fun g hg => by rw [h d hd g hg]; decide)
    rw [scoring, scoring, List.filter_append, List.filter_append]
    exact congrArg _ (scoring_cons_of_none hx)

/-- Of the filters of an item only those that match count, in any order. -/
theorem chosen_filters (h : ∀ d, ls.identify params = some d → ∀ x ∈ xs,
      ((g x).filter (·.accepts d)).Perm ((f x).filter (·.accepts d))) :
    chosen g ls params xs = chosen f ls params xs :=
  chosen_congr fun d hd n => List.filter_congr fun x hx => by
    have hs : (g x).best? d = (f x).best? d := Selector.best?_congr (h d hd x hx)
    simp only [← Selector.best?_eq_some, hs]

/-! ## The whole -/

/-- **The most specific match, and of several the first.** Whatever is remembered of documents,
whatever the params are and whichever items there are: a notification goes to all items of which
some filter matches the document that the params are about, in their order, and to none if they are
about no document. A request goes to one of these items if there is any: to the one whose matching
filters name more than those of every item before it, and no less than those of any item behind it.
So what does not match may come and go, items may change places with others of another score, and
filters of one item may change places or, if they do not match, be others, and the same item is
chosen. -/
theorem chooses_closest (f : α → Selector) (ls : Languages) (params : Json) (xs : List α) :
    (ls.identify params = none → routed f ls params xs = []) ∧
    (∀ d, ls.identify params = some d →
      routed f ls params xs = xs.filter (fun x => decide (∃ g ∈ f x, g.accepts d = true)) ∧
      ∀ x, chosen f ls params xs = some x ↔ IsClosest f d (routed f ls params xs) x) ∧
    ((chosen f ls params xs).isSome = true ↔ routed f ls params xs ≠ []) ∧
    (∀ before x after, (∀ d, ls.identify params = some d → ∀ g ∈ f x, g.accepts d = false) →
      chosen f ls params (before ++ x :: after) = chosen f ls params (before ++ after)) ∧
    (∀ ys, (∀ d, ls.identify params = some d → ∀ n,
        ys.filter (fun x => (f x).Scores d n) = xs.filter fun x => (f x).Scores d n) →
      chosen f ls params ys = chosen f ls params xs) ∧
    ∀ g : α → Selector, (∀ d, ls.identify params = some d → ∀ x ∈ xs,
        ((g x).filter (·.accepts d)).Perm ((f x).filter (·.accepts d))) →
      chosen g ls params xs = chosen f ls params xs := by
  refine ⟨fun hn => by rw [routed, hn], fun d hd => ⟨?_, fun x => ?_⟩, ?_,
    fun before x after h => chosen_insert h before after, fun ys h => chosen_congr h,
    fun g h => chosen_filters h⟩
  · -- Routed are those that accept the document, by the filters of each.
    rw [routed, hd]
    exact List.filter_congr fun x _ => by
      rw [Bool.eq_iff_iff, Selector.accepts_iff, decide_eq_true_eq]
  · -- Among them the chosen one has the best score, and the first of these is taken.
    have hr : routed f ls params xs = matching f d xs := by rw [routed, hd]
    rw [hr, isClosest_matching, chosen_eq_some hd]
  · -- Somebody is chosen as long as somebody is routed.
    have hnone : chosen f ls params xs = none ↔ routed f ls params xs = [] := by
      simp only [chosen_eq_none, routed_eq_filter, List.filter_eq_nil_iff, Bool.not_eq_true]
    rw [← Option.ne_none_iff_isSome]
    exact not_congr hnone

/-- Four items, of which the first names most but does not match, and the last two match equally
closely. Nothing changes if the first one is not there, if the least close one comes last, or if all
filters stand the other way round. -/
theorem chooses_closest_tied :
    let far : Filter := { scheme := some "http", language := some "lean" }
    let wide : String × Selector := ("wide", [{}])
    let first : String × Selector := ("first", [far, {}, { language := some "lean" }])
    let second : String × Selector := ("second", [{ scheme := some "FILE" }])
    let params : Json := .ofMembers [("textDocument",
      .ofMembers [("uri", .str "file:///a"), ("languageId", .str "lean")])]
    let choice (f : String × Selector → Selector) := chosen f [] params
    (routed Prod.snd [] params [("far", [far]), wide, first, second]).map Prod.fst =
        ["wide", "first", "second"] ∧
      (choice Prod.snd [("far", [far]), wide, first, second]).map Prod.fst = some "first" ∧
      choice Prod.snd [wide, first, second] =
        choice Prod.snd [("far", [far]), wide, first, second] ∧
      choice Prod.snd [first, second, wide] = choice Prod.snd [wide, first, second] ∧
      choice (fun x => x.2.reverse) [wide, first, second] =
        choice Prod.snd [wide, first, second] := by
  intro far wide first second params choice
  have hd : (Languages.identify [] params).any (fun d => decide ((Selector.best? [far] d = none ∧
      wide.2.best? d = some 0) ∧ first.2.best? d = some 1 ∧ second.2.best? d = some 1)) = true := by
    decide +kernel
  obtain ⟨d, hd, hs⟩ := (Option.any_eq_true _ _).mp hd
  obtain ⟨⟨hfar, hwide⟩, hfirst, hsecond⟩ := of_decide_eq_true hs
  have only : ∀ d', Languages.identify [] params = some d' → d' = d := fun d' h =>
    Option.some.inj (h.symm.trans hd)
  obtain ⟨-, -, -, insert, -, -⟩ :=
    chooses_closest Prod.snd [] params [("far", [far]), wide, first, second]
  obtain ⟨-, -, -, -, permute, filters⟩ :=
    chooses_closest Prod.snd [] params [wide, first, second]
  refine ⟨by decide +kernel, by decide +kernel, ?_, ?_, ?_⟩
  · refine (insert [] ("far", [far]) [wide, first, second] fun d' h g hg => ?_).symm
    obtain rfl := only d' h
    exact Bool.eq_false_iff.mpr (List.any_eq_false.mp (Selector.best?_eq_none.mp hfar) g hg)
  · refine permute [first, second, wide] fun d' h n => ?_
    obtain rfl := only d' h
    simp only [← Selector.best?_eq_some, List.filter_cons, hwide, hfirst, hsecond]
    rcases n with _ | _ | n <;> rfl
  · refine filters (fun x => x.2.reverse) fun d' h x _ => ?_
    rw [List.filter_reverse]
    exact List.reverse_perm _

end choice

end Parley

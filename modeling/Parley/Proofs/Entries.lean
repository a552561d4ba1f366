/-!
# Entries of lists

Each thing in a network is known by its place in a list. These lemmas say what becomes of an entry
when the list grows at its end, or when one entry changes.
-/

namespace Parley

variable {α : Type} {l : List α} {n i : Nat} {a b : α}

/-- An entry of a list that has grown was there before, or it is the new one. -/
theorem getElem?_append_one (h : (l ++ [a])[i]? = some b) :
    l[i]? = some b ∨ (i = l.length ∧ b = a) := by
  rcases Nat.lt_trichotomy i l.length with hi | hi | hi
  · rw [List.getElem?_append_left hi] at h
    exact .inl h
  · subst hi
    simp only [List.getElem?_concat_length, Option.some.injEq] at h
    exact .inr ⟨rfl, h.symm⟩
  · rw [List.getElem?_eq_none (by simp; omega)] at h
    cases h

/-- The entries of a list that has grown by two. -/
theorem getElem?_append_two {c : α} :
    (l ++ [a, b])[i]? = some c ↔
      l[i]? = some c ∨ (i = l.length ∧ c = a) ∨ (i = l.length + 1 ∧ c = b) := by
  rcases Nat.lt_or_ge i l.length with hi | hi
  · rw [List.getElem?_append_left hi]
    refine ⟨.inl, fun h => h.resolve_right ?_⟩
    omega
  · obtain ⟨k, rfl⟩ := Nat.exists_eq_add_of_le hi
    rw [List.getElem?_append_right hi, List.getElem?_eq_none hi, Nat.add_sub_cancel_left]
    rcases k with _ | _ | k
    · simp [eq_comm]
    · simp [eq_comm]
    · simp

/-- An entry that is there stays when the list grows. -/
theorem getElem?_append_of_some (h : l[i]? = some b) (m : List α) : (l ++ m)[i]? = some b := by
  rwa [List.getElem?_append_left (List.getElem?_eq_some_iff.mp h).1]

/-- An entry of a list after one entry has changed. -/
theorem getElem?_modify_eq_some {f : α → α} (h : (l.modify n f)[i]? = some b) :
    ∃ a, l[i]? = some a ∧ b = if n = i then f a else a := by
  rw [List.getElem?_modify] at h
  obtain ⟨a, ha, hb⟩ := Option.map_eq_some_iff.mp h
  refine ⟨a, ha, hb.symm.trans ?_⟩
  split <;> rfl

/-- Changing an entry that is there is replacing it. -/
theorem modify_eq_set (h : l[n]? = some a) (f : α → α) : l.modify n f = l.set n (f a) := by
  refine List.ext_getElem? fun i => ?_
  rw [List.getElem?_modify, List.getElem?_set]
  by_cases hi : n = i
  · subst hi
    obtain ⟨hn, ha⟩ := List.getElem?_eq_some_iff.mp h
    simp [hn, ha]
  · simp [hi]

theorem modify_append_one (l : List α) (a : α) (f : α → α) :
    (l ++ [a]).modify l.length f = l ++ [f a] := by
  rw [modify_eq_set (a := a) (by simp), List.set_append_right _ _ (Nat.le_refl _), Nat.sub_self]
  rfl

/-- Replacing an entry by itself changes nothing. -/
theorem set_eq_self (h : l[n]? = some a) : l.set n a = l := by
  obtain ⟨hn, rfl⟩ := List.getElem?_eq_some_iff.mp h
  exact List.set_getElem_self hn

/-- Changing an entry that is not there changes nothing. -/
theorem modify_eq_of_none (h : l[n]? = none) (f : α → α) : l.modify n f = l :=
  List.modify_eq_self (List.getElem?_eq_none_iff.mp h)

/-- Changing an entry into itself changes nothing. -/
theorem modify_eq_of_eq {f : α → α} (h : ∀ a, l[n]? = some a → f a = a) : l.modify n f = l := by
  cases ha : l[n]? with
  | none => exact modify_eq_of_none ha f
  | some a => rw [modify_eq_set ha, h a ha, set_eq_self ha]

/-- A list of pairs in which no first part stands twice. -/
theorem eq_of_nodup_fst {β : Type} {t : List (α × β)} {a : α} {b b' : β}
    (h : (t.map Prod.fst).Nodup) (hb : (a, b) ∈ t) (hb' : (a, b') ∈ t) : b = b' := by
  induction t with
  | nil => exact absurd hb List.not_mem_nil
  | cons p t ih =>
    rw [List.map_cons, List.nodup_cons] at h
    rcases List.mem_cons.mp hb with he | hm <;> rcases List.mem_cons.mp hb' with he' | hm'
    · exact (Prod.mk.inj (he.trans he'.symm)).2
    · rw [← he] at h
      exact absurd (List.mem_map_of_mem hm') h.1
    · rw [← he'] at h
      exact absurd (List.mem_map_of_mem hm) h.1
    · exact ih h.2 hm hm'

theorem lookup_of_nodup_fst {β : Type} [BEq α] [LawfulBEq α] {t : List (α × β)} {a : α} {b : β}
    (h : (t.map Prod.fst).Nodup) (hb : (a, b) ∈ t) : t.lookup a = some b := by
  cases hl : t.lookup a with
  | none => simpa using List.lookup_eq_none_iff.mp hl _ hb
  | some b' =>
    obtain ⟨l, m, rfl, -⟩ := List.lookup_eq_some_iff.mp hl
    rw [eq_of_nodup_fst h hb (List.mem_append_right l List.mem_cons_self)]

end Parley

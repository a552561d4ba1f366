import Parley.Json.Basic

/-!
# Values of a kind

- `Json.all`: a condition on a value and every value inside it.
- `Json.depth`: how deep brackets are nested.
- `Json.isInteger`, `Json.isOrdered`, `Json.isExact`: values whose numbers are integers, and whose
  objects are in order. Objects that are put together from members are.
-/

namespace Parley.Json

/-! ## Values of a kind -/

mutual

/-- Whether a value and every value inside it satisfy a condition. -/
def all (f : Json → Bool) : Json → Bool
  | .arr vs => f (.arr vs) && allItems f vs
  | .obj ms => f (.obj ms) && allMembers f ms
  | v => f v

/-- `all` for the items of an array. -/
def allItems (f : Json → Bool) : List Json → Bool
  | [] => true
  | v :: vs => all f v && allItems f vs

/-- `all` for the members of an object. -/
def allMembers (f : Json → Bool) : List (String × Json) → Bool
  | [] => true
  | (_, v) :: ms => all f v && allMembers f ms

end

mutual

/-- How deep arrays and objects are nested. -/
def depth : Json → Nat
  | .arr vs => depthItems vs + 1
  | .obj ms => depthMembers ms + 1
  | _ => 0

/-- How deep they are nested in the items of an array. -/
def depthItems : List Json → Nat
  | [] => 0
  | v :: vs => max (depth v) (depthItems vs)

/-- How deep they are nested in the members of an object. -/
def depthMembers : List (String × Json) → Nat
  | [] => 0
  | (_, v) :: ms => max (depth v) (depthMembers ms)

end

/-- Whether a value is not a number, or an integer. -/
def isInteger : Json → Bool
  | .num (.real _) => false
  | _ => true

/-- Members in ascending order of their keys. -/
def Ascending (ms : List (String × Json)) : Prop :=
  ms.Pairwise fun m n => m.1 < n.1

instance (ms : List (String × Json)) : Decidable (Ascending ms) :=
  inferInstanceAs (Decidable (ms.Pairwise fun m n => m.1 < n.1))

/-- Whether a value is not an object, or has its members in order. -/
def isOrdered : Json → Bool
  | .obj ms => decide (Ascending ms)
  | _ => true

/-- What a value has to be in order to be read back: objects are in order anyway, but a number that
is no integer may lose its last digits. -/
def isExact (v : Json) : Bool := v.isInteger && v.isOrdered

/-! ## Objects in order -/

theorem insertMember_last {k : String} {v : Json} {ms : List (String × Json)}
    (h : ∀ m ∈ ms, m.1 < k) : insertMember k v ms = ms ++ [(k, v)] := by
  induction ms with
  | nil => rfl
  | cons m ms ih =>
    have hm := h m List.mem_cons_self
    have hlt : ¬k < m.1 := String.lt_asymm hm
    have hne : k ≠ m.1 := by
      rintro rfl
      exact String.lt_irrefl _ hm
    rw [insertMember, if_neg hlt, if_neg hne, ih fun n hn => h n (List.mem_cons_of_mem _ hn)]
    rfl

theorem foldl_insertMember {ns ms : List (String × Json)} (h : Ascending (ms ++ ns)) :
    ns.foldl (fun acc m => insertMember m.1 m.2 acc) ms = ms ++ ns := by
  induction ns generalizing ms with
  | nil => simp
  | cons n ns ih =>
    have hlast : ∀ m ∈ ms, m.1 < n.1 := fun m hm =>
      (List.pairwise_append.mp h).2.2 m hm n List.mem_cons_self
    rw [List.foldl_cons, insertMember_last hlast, ih (by simpa using h), List.append_assoc]
    rfl

/-- Members in order are the members of their object. -/
theorem ofMembers_of_ascending {ms : List (String × Json)} (h : Ascending ms) :
    ofMembers ms = .obj ms := by
  have hfold : ms.foldl _ [] = [] ++ ms := foldl_insertMember h
  rw [ofMembers, hfold]
  rfl

theorem mem_insertMember {k : String} {v : Json} {ms : List (String × Json)} {m : String × Json}
    (h : m ∈ insertMember k v ms) : m = (k, v) ∨ m ∈ ms := by
  induction ms with
  | nil => exact .inl (List.mem_singleton.mp h)
  | cons n ms ih =>
    rw [insertMember] at h
    split at h
    · exact List.mem_cons.mp h
    · split at h
      · exact (List.mem_cons.mp h).imp_right (List.mem_cons_of_mem _)
      · rcases List.mem_cons.mp h with rfl | h
        · exact .inr List.mem_cons_self
        · exact (ih h).imp_right (List.mem_cons_of_mem _)

theorem Ascending.insertMember {ms : List (String × Json)} (h : Ascending ms) (k : String)
    (v : Json) : Ascending (insertMember k v ms) := by
  induction ms with
  | nil => exact List.pairwise_singleton _ _
  | cons n ms ih =>
    obtain ⟨hn, hms⟩ := List.pairwise_cons.mp h
    rw [Json.insertMember]
    split
    · -- It goes in front, or in the place of the one of its name, or further behind.
      rename_i hlt
      refine List.pairwise_cons.mpr ⟨fun m hm => ?_, h⟩
      rcases List.mem_cons.mp hm with rfl | hm
      · exact hlt
      · exact String.lt_trans hlt (hn m hm)
    · split
      · rename_i heq
        subst heq
        exact List.pairwise_cons.mpr ⟨hn, hms⟩
      · rename_i hlt hne
        refine List.pairwise_cons.mpr ⟨fun m hm => ?_, ih hms⟩
        rcases mem_insertMember hm with rfl | hm
        · refine Decidable.byContradiction fun hle => hne ?_
          exact String.le_antisymm (String.not_lt.mp hle) (String.not_lt.mp hlt)
        · exact hn m hm

/-! ## Objects that are put together -/

theorem Ascending.foldl {ms : List (String × Json)} (h : Ascending ms)
    (ns : List (String × Json)) :
    Ascending (ns.foldl (fun acc m => Json.insertMember m.1 m.2 acc) ms) := by
  induction ns generalizing ms with
  | nil => exact h
  | cons n ns ih => exact ih (h.insertMember n.1 n.2)

theorem mem_foldl_insertMember {ms ns : List (String × Json)} {m : String × Json}
    (h : m ∈ ns.foldl (fun acc m => insertMember m.1 m.2 acc) ms) : m ∈ ms ∨ m ∈ ns := by
  induction ns generalizing ms with
  | nil => exact .inl h
  | cons n ns ih =>
    rcases ih h with h | h
    · exact (mem_insertMember h).elim (fun h => .inr (h ▸ List.mem_cons_self)) .inl
    · exact .inr (List.mem_cons_of_mem _ h)

/-- Of the members under a key the last one counts. -/
theorem lookup_foldl_insertMember (ms ns : List (String × Json)) (k : String) :
    (ns.foldl (fun acc m => insertMember m.1 m.2 acc) ms).lookup k =
      (ns.reverse.lookup k).or (ms.lookup k) := by
  induction ns generalizing ms with
  | nil => rfl
  | cons n ns ih =>
    rw [List.foldl_cons, ih, List.reverse_cons, List.lookup_append, Option.or_assoc]
    congr 1
    by_cases h : k = n.1
    · rw [h, lookup_insertMember_self, List.lookup_cons_self, Option.some_or]
    · rw [lookup_insertMember_ne _ _ h, List.lookup_cons, beq_false_of_ne h]
      rfl

theorem allMembers_iff {f : Json → Bool} {ms : List (String × Json)} :
    allMembers f ms = true ↔ ∀ m ∈ ms, m.2.all f = true := by
  induction ms with
  | nil => simp [allMembers]
  | cons m ms ih => rw [allMembers, Bool.and_eq_true, ih, List.forall_mem_cons]

/-- An object that is put together from exact values is exact. -/
theorem all_ofMembers {ms : List (String × Json)} (h : ∀ m ∈ ms, m.2.all isExact = true) :
    (ofMembers ms).all isExact = true := by
  rw [ofMembers, all, Bool.and_eq_true, allMembers_iff]
  refine ⟨?_, fun m hm => h m ?_⟩
  · have hasc : Ascending [] := List.Pairwise.nil
    exact decide_eq_true (hasc.foldl ms)
  · exact (mem_foldl_insertMember hm).resolve_left List.not_mem_nil

end Parley.Json

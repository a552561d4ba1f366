import Parley.Json.Number

/-!
# JSON values

- `Json`: the values, with decidable equality.
- `Json.index`: the member of an object; `null` stands for what is not there.
- `insertMember`, `List.lookup`: objects as lists of members in ascending order of their keys. A key
  that is written again replaces its member.
-/

namespace Parley

open Json (Number)

/-- A JSON value. The members of an object stand in ascending order of their keys, by code
point, and no key occurs twice. -/
inductive Json where
  | null
  | bool (b : Bool)
  | num (n : Number)
  | str (s : String)
  | arr (items : List Json)
  | obj (members : List (String × Json))
  deriving Inhabited, Repr

namespace Json

/-! ## Equality -/

mutual

/-- Equality of values is decided along their structure. -/
def decEq : (a b : Json) → Decidable (a = b)
  | .null, .null => .isTrue rfl
  | .bool a, .bool b => decidable_of_iff (a = b) (by simp)
  | .num a, .num b => decidable_of_iff (a = b) (by simp)
  | .str a, .str b => decidable_of_iff (a = b) (by simp)
  | .arr a, .arr b => @decidable_of_iff _ (a = b) (by simp) (decEqItems a b)
  | .obj a, .obj b => @decidable_of_iff _ (a = b) (by simp) (decEqMembers a b)
  | .null, .bool _ | .null, .num _ | .null, .str _ | .null, .arr _ | .null, .obj _
  | .bool _, .null | .bool _, .num _ | .bool _, .str _ | .bool _, .arr _ | .bool _, .obj _
  | .num _, .null | .num _, .bool _ | .num _, .str _ | .num _, .arr _ | .num _, .obj _
  | .str _, .null | .str _, .bool _ | .str _, .num _ | .str _, .arr _ | .str _, .obj _
  | .arr _, .null | .arr _, .bool _ | .arr _, .num _ | .arr _, .str _ | .arr _, .obj _
  | .obj _, .null | .obj _, .bool _ | .obj _, .num _ | .obj _, .str _ | .obj _, .arr _ =>
    .isFalse (by simp)

/-- Equality of lists of values. -/
def decEqItems : (a b : List Json) → Decidable (a = b)
  | [], [] => .isTrue rfl
  | a :: as, b :: bs =>
    match decEq a b, decEqItems as bs with
    | .isTrue h, .isTrue h' => .isTrue (by rw [h, h'])
    | .isFalse h, _ => .isFalse (by simp [h])
    | _, .isFalse h => .isFalse (by simp [h])
  | [], _ :: _ | _ :: _, [] => .isFalse (by simp)

/-- Equality of lists of members. -/
def decEqMembers : (a b : List (String × Json)) → Decidable (a = b)
  | [], [] => .isTrue rfl
  | (k, a) :: as, (l, b) :: bs =>
    if hk : k = l then
      match decEq a b, decEqMembers as bs with
      | .isTrue h, .isTrue h' => .isTrue (by rw [hk, h, h'])
      | .isFalse h, _ => .isFalse (by simp [h])
      | _, .isFalse h => .isFalse (by simp [h])
    else .isFalse (by simp [hk])
  | [], _ :: _ | _ :: _, [] => .isFalse (by simp)

end

instance : DecidableEq Json := decEq

/-! ## Objects -/

/-- Puts a member into an object, in the place of the one with its key if there is one. -/
def insertMember (k : String) (v : Json) : List (String × Json) → List (String × Json)
  | [] => [(k, v)]
  | (l, w) :: ms =>
    if k < l then (k, v) :: (l, w) :: ms
    else if k = l then (k, v) :: ms
    else (l, w) :: insertMember k v ms

/-- The object with the given members; of two with one key the later one counts. -/
def ofMembers (ms : List (String × Json)) : Json :=
  .obj (ms.foldl (fun acc m => insertMember m.1 m.2 acc) [])

/-- The member of an object under a key; `null` if there is none or the value is no object. -/
def index (v : Json) (k : String) : Json :=
  match v with
  | .obj ms => (ms.lookup k).getD .null
  | _ => .null

/-- The text of a string value. -/
def asText? : Json → Option String
  | .str s => some s
  | _ => none

/-- The number of an integer in range; `null` for any other integer. -/
def ofInt (n : Int) : Json :=
  match Whole.ofInt? n with
  | some w => .num (.whole w)
  | none => .null

@[simp] theorem insertMember_nil (k : String) (v : Json) : insertMember k v [] = [(k, v)] := rfl

theorem lookup_insertMember_self (k : String) (v : Json) (ms : List (String × Json)) :
    (insertMember k v ms).lookup k = some v := by
  induction ms with
  | nil => simp
  | cons m ms ih =>
    obtain ⟨l, w⟩ := m
    simp only [insertMember]
    split
    · exact List.lookup_cons_self
    · split
      · exact List.lookup_cons_self
      · rename_i hne
        rw [List.lookup_cons, ih, beq_false_of_ne hne]

theorem lookup_insertMember_ne {k l : String} (v : Json) (ms : List (String × Json))
    (h : l ≠ k) : (insertMember k v ms).lookup l = ms.lookup l := by
  induction ms with
  | nil => rw [insertMember, List.lookup_cons, beq_false_of_ne h]
  | cons m ms ih =>
    obtain ⟨j, w⟩ := m
    simp only [insertMember]
    split
    · rw [List.lookup_cons, beq_false_of_ne h]
    · split
      · rename_i heq
        subst heq
        rw [List.lookup_cons, List.lookup_cons, beq_false_of_ne h]
      · rw [List.lookup_cons, List.lookup_cons, ih]

end Json

end Parley

import Parley.Json.Shape

/-!
# Request identifiers

An identifier is an integer of 64 bits or a text; the integer 1 and the text "1" differ.

- `Id.toJson`, `Id.ofJson?`: its form as a JSON value.
- `Id.ofBytes`: its form as JSON text.
- `Counter`: the source of the identifiers of one side, which wraps around.
-/

namespace Parley

open Json (Whole)

/-- What ties a response to its request. -/
inductive Id where
  | number (n : Int64)
  | text (s : String)
  deriving DecidableEq, Repr

namespace Id

/-- The integers of 64 bits. -/
def ofInt? (n : Int) : Option Int64 :=
  if -0x8000000000000000 ≤ n ∧ n < 0x8000000000000000 then some (Int64.ofInt n) else none

/-- The JSON value of an identifier. -/
def toJson : Id → Json
  | .number n => .ofInt n.toInt
  | .text s => .str s

/-- What an identifier may be: the shapes that are tried in turn, each with the identifier that a
value of it is. -/
def alternatives : List (Json.Shape × (Json → Option Id)) :=
  [(.int64, fun
      | .num (.whole w) => some (.number (Int64.ofInt w.val))
      | _ => none),
    (.text, fun
      | .str s => some (.text s)
      | _ => none)]

/-- The identifier that a JSON value is, by the first shape that it fits. -/
def ofJson? (v : Json) : Option Id :=
  alternatives.findSome? fun a => (a.1.ofJson v).toOption.bind a.2

/-- The identifier that a JSON value is, or why it is none. -/
def ofJson (v : Json) : Except Json.Cause Id :=
  match ofJson? v with
  | some id => .ok id
  | none => .error (.noAlternative "RequestId")

/-- Reads an identifier from JSON text. What follows it is looked at only if it is one. -/
def ofBytes (bs : List UInt8) : Except Json.Error Id :=
  let c := Json.Cursor.ofBytes bs
  match Json.readValue c.fuel Json.maxDepth c with
  | .error e => .error e
  | .ok (v, c) =>
    match ofJson v with
    | .error cause => .error ⟨cause, none⟩
    | .ok id => (Json.closeText c).map fun _ => id

/-- How an identifier is shown: a text in quotes. -/
def display : Id → String
  | .number n => String.ofList (Json.renderInt n.toInt)
  | .text s => Text.quote s.toList

theorem toInt_range (n : Int64) : -0x8000000000000000 ≤ n.toInt ∧ n.toInt < 0x8000000000000000 :=
  ⟨n.le_toInt, n.toInt_lt⟩

theorem ofInt?_toInt (n : Int64) : ofInt? n.toInt = some n := by
  rw [ofInt?, if_pos (toInt_range n), Int64.ofInt_toInt]

theorem toInt_of_ofInt? {n : Int} {k : Int64} (h : ofInt? n = some k) : k.toInt = n := by
  rw [ofInt?] at h
  split at h
  · next hn =>
    obtain rfl := Option.some.inj h
    exact Int64.toInt_ofInt_of_le hn.1 hn.2
  · cases h

theorem toInt_lt_whole (n : Int64) : n.toInt < 0x10000000000000000 :=
  Int.lt_trans (toInt_range n).2 (by decide)

theorem toJson_number (n : Int64) : (Id.number n).toJson =
    .num (.whole ⟨n.toInt, (toInt_range n).1, toInt_lt_whole n⟩) := by
  rw [toJson, Json.ofInt, Whole.ofInt?, dif_pos ⟨(toInt_range n).1, toInt_lt_whole n⟩]

/-- Only a whole number fits the first shape, and no number fits the second one. -/
theorem ofJson?_whole (w : Whole) : ofJson? (.num (.whole w)) =
    if w.val ≤ 0x7fffffffffffffff then some (.number (Int64.ofInt w.val)) else none := by
  have hfit : Json.Shape.int64.ofJson (.num (.whole w)) =
      if w.val ≤ 0x7fffffffffffffff then .ok (.num (.whole w))
      else .error (.wrongValue (.number (.whole w)) "i64") := by
    simp only [Json.Shape.int64, Json.Shape.ofJson, Json.fitInt, w.lower, true_and]
  simp only [ofJson?, alternatives, List.findSome?_cons, hfit]
  by_cases h : w.val ≤ 0x7fffffffffffffff
  · rw [if_pos h, if_pos h]
    rfl
  · rw [if_neg h, if_neg h]
    rfl

/-- One JSON value is an identifier, and no other one. -/
theorem ofJson?_eq_some {v : Json} {id : Id} : ofJson? v = some id ↔ v = id.toJson := by
  constructor
  · intro h
    cases v with
    | num n =>
      cases n with
      | real x => cases h
      | whole w =>
        rw [ofJson?_whole] at h
        split at h
        · next hw =>
          obtain rfl := Option.some.inj h
          have hn := Int64.toInt_ofInt_of_le w.lower (Int.lt_add_one_of_le hw)
          rw [toJson_number]
          simp only [hn]
        · cases h
    | str s =>
      obtain rfl := Option.some.inj h
      rfl
    | null | bool | arr | obj => cases h
  · rintro rfl
    cases id with
    | text s => rfl
    | number n =>
      rw [toJson_number, ofJson?_whole, if_pos (Int.le_of_lt_add_one (toInt_range n).2),
        Int64.ofInt_toInt]

end Id

/-- The source of the identifiers of one side: the next one. -/
structure Counter where
  value : Int64
  deriving DecidableEq, Repr

/-- A fresh counter starts at 0. -/
def Counter.new : Counter := ⟨0⟩

/-- The next identifier, and the counter after it; the greatest integer is followed by the least. -/
def Counter.next (c : Counter) : Id × Counter :=
  (.number c.value, ⟨c.value + 1⟩)

/-- The next `n` identifiers, and the counter after them. -/
def Counter.take (c : Counter) : Nat → List Id × Counter
  | 0 => ([], c)
  | n + 1 =>
    let (id, c) := c.next
    let (ids, c) := c.take n
    (id :: ids, c)

end Parley

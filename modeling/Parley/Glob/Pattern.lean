/-!
# Patterns over bytes

- `Pattern`: one byte of a set, many bytes of a set, sequence and choice.
- `Pattern.Matches`: which byte strings a pattern describes.
- `Pattern.accepts`: decides whether it describes a string. All ways through the pattern are
  followed at once: a list of marks says behind which bytes a match of the pattern so far may end.
-/

namespace Parley.Glob

/-- A set of bytes: those in one of the ranges, or those in none of them. -/
structure ByteSet where
  negated : Bool
  ranges : List (UInt8 × UInt8)
  deriving DecidableEq, Repr

namespace ByteSet

/-- Whether a byte is in the set. -/
def contains (s : ByteSet) (b : UInt8) : Bool :=
  s.ranges.any (fun r => r.1 ≤ b && b ≤ r.2) != s.negated

/-- The set of one byte. -/
def single (b : UInt8) : ByteSet := ⟨false, [(b, b)]⟩

/-- The set of all bytes. -/
def full : ByteSet := ⟨true, []⟩

/-- All bytes but one. -/
def allBut (b : UInt8) : ByteSet := ⟨true, [(b, b)]⟩

@[simp] theorem contains_full (b : UInt8) : full.contains b = true := rfl

theorem contains_single (a b : UInt8) : (single a).contains b = true ↔ b = a := by
  simp only [contains, single, List.any_cons, List.any_nil, Bool.or_false, bne_iff_ne, ne_eq,
    Bool.not_eq_false, Bool.and_eq_true, decide_eq_true_eq]
  exact ⟨fun h => UInt8.le_antisymm h.2 h.1, fun h => h ▸ ⟨UInt8.le_refl _, UInt8.le_refl _⟩⟩

theorem contains_allBut (a b : UInt8) : (allBut a).contains b = true ↔ b ≠ a := by
  rw [ne_eq, ← contains_single a b, contains, contains, allBut, single]
  cases List.any [(a, a)] fun r => r.1 ≤ b && b ≤ r.2 <;> simp

end ByteSet

/-- A pattern. -/
inductive Pattern where
  /-- The empty string. -/
  | nothing
  /-- One byte of a set. -/
  | one (s : ByteSet)
  /-- Any number of bytes of a set. -/
  | many (s : ByteSet)
  /-- A match of the first, and a match of the second behind it. -/
  | both (p q : Pattern)
  /-- A match of one of the two. -/
  | either (p q : Pattern)
  deriving DecidableEq, Repr

namespace Pattern

/-- The strings that a pattern describes. -/
inductive Matches : Pattern → List UInt8 → Prop where
  | nothing : Matches .nothing []
  | one {s : ByteSet} {b : UInt8} (h : s.contains b = true) : Matches (.one s) [b]
  | many {s : ByteSet} {bs : List UInt8} (h : ∀ b ∈ bs, s.contains b = true) :
      Matches (.many s) bs
  | both {p q : Pattern} {bs cs : List UInt8} (hp : Matches p bs) (hq : Matches q cs) :
      Matches (.both p q) (bs ++ cs)
  | left {p q : Pattern} {bs : List UInt8} (h : Matches p bs) : Matches (.either p q) bs
  | right {p q : Pattern} {bs : List UInt8} (h : Matches q bs) : Matches (.either p q) bs

/-- Moves every mark behind the next byte, where that is in the set. -/
def advance (s : ByteSet) : List UInt8 → List Bool → List Bool
  | b :: bs, m :: ms => (m && s.contains b) :: advance s bs ms
  | _, _ => []

/-- Sets a mark behind every run of bytes of the set that starts at a mark. `carry` says whether
such a run reaches the first place. -/
def spread (s : ByteSet) (carry : Bool) : List UInt8 → List Bool → List Bool
  | b :: bs, m :: ms =>
    let here := m || carry
    here :: spread s (here && s.contains b) bs ms
  | [], m :: _ => [m || carry]
  | _, [] => []

/-- The marks behind the matches of a pattern that start at a mark. -/
def after : Pattern → List UInt8 → List Bool → List Bool
  | .nothing, _, ms => ms
  | .one s, bs, ms => false :: advance s bs ms
  | .many s, bs, ms => spread s false bs ms
  | .both p q, bs, ms => q.after bs (p.after bs ms)
  | .either p q, bs, ms => List.zipWith or (p.after bs ms) (q.after bs ms)

/-- Whether a pattern describes a string. -/
def accepts (p : Pattern) (bs : List UInt8) : Bool :=
  (p.after bs (true :: bs.map fun _ => false)).getLast? == some true

end Pattern

end Parley.Glob

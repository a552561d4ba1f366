import Mathlib.Data.Nat.ModEq
import Parley.Message.Id

/-!
# Numbering

A side numbers its requests upwards from where its counter stands. After the greatest integer comes
the least one, so that a number comes again after `2 ^ 64` others, and not before.

- `Counter.nth`, `Counter.after`: the identifier after `n` others, and the counter there.
- `Counter.take_eq`: the identifiers that a counter gives are these, in order.
- `Counter.toInt_value_after`: their numbers are the sums, reduced to the range of the integers.
- `Counter.nth_inj`, `Counter.nodup_nth`: when two of them are the same.
-/

namespace Parley.Counter

/-- The counter after `n` identifiers. -/
def after (c : Counter) (n : Nat) : Counter := ⟨c.value + Int64.ofNat n⟩

/-- The identifier that comes after `n` others. -/
def nth (c : Counter) (n : Nat) : Id := (c.after n).next.1

@[simp] theorem after_zero (c : Counter) : c.after 0 = c := by
  simp [after]

/-- One step more at the end is one step more at the beginning. -/
theorem after_succ (c : Counter) (n : Nat) : c.after (n + 1) = (c.after n).next.2 := by
  simp [after, next, Int64.ofNat_add, Int64.add_assoc]

theorem next_after (c : Counter) (n : Nat) : c.next.2.after n = c.after (n + 1) := by
  simp [after, next, Int64.ofNat_add, Int64.add_assoc, Int64.add_comm 1]

theorem next_nth (c : Counter) (n : Nat) : c.next.2.nth n = c.nth (n + 1) := by
  rw [nth, nth, next_after]

/-- **The identifiers in order.** A counter gives the first, the second and so on. -/
theorem take_eq (c : Counter) (n : Nat) :
    c.take n = ((List.range n).map c.nth, c.after n) := by
  induction n generalizing c with
  | zero => simp [take]
  | succ n ih =>
    have hnth : c.next.2.nth = c.nth ∘ Nat.succ := funext (next_nth c)
    have hfirst : c.next.1 = c.nth 0 := by rw [nth, after_zero]
    rw [take]
    simp only [ih, hnth, hfirst, next_after, List.range_succ_eq_map, List.map_cons, List.map_map]

theorem getElem?_take (c : Counter) {m n : Nat} (h : n < m) :
    (c.take m).1[n]? = some (c.nth n) := by
  simp [take_eq, h]

/-- The number is the sum, taken modulo `2 ^ 64` into the range of the integers. -/
theorem toInt_value_after (c : Counter) (n : Nat) :
    (c.after n).value.toInt = (c.value.toInt + n).bmod (2 ^ 64) := by
  rw [after, Int64.toInt_add, Int64.toInt_ofNat', Int.add_bmod_bmod]
  rfl

/-- **When identifiers are the same.** A multiple of `2 ^ 64` lies between them. -/
theorem nth_inj (c : Counter) {j k : Nat} (h : j ≤ k) : c.nth j = c.nth k ↔ 2 ^ 64 ∣ k - j := by
  have hvalue : c.nth j = c.nth k ↔ Int64.ofNat j = Int64.ofNat k := by
    simp [nth, next, after]
  have hbits : Int64.ofNat j = Int64.ofNat k ↔ j % 2 ^ 64 = k % 2 ^ 64 := by
    rw [← Int64.toBitVec_inj, Int64.toBitVec_ofNat', Int64.toBitVec_ofNat', ← BitVec.toNat_inj,
      BitVec.toNat_ofNat, BitVec.toNat_ofNat]
  rw [hvalue, hbits]
  exact Nat.modEq_iff_dvd' h

/-- Fewer than `2 ^ 64` steps never lead back. -/
theorem nth_ne {c : Counter} {j k : Nat} (hjk : j < k) (hk : k - j < 2 ^ 64) :
    c.nth j ≠ c.nth k := by
  intro h
  have hdvd := (c.nth_inj (Nat.le_of_lt hjk)).mp h
  exact absurd (Nat.le_of_dvd (by omega) hdvd) (by omega)

theorem nodup_nth (c : Counter) {n : Nat} (h : n ≤ 2 ^ 64) :
    ((List.range n).map c.nth).Nodup := by
  refine List.pairwise_map.mpr (List.pairwise_lt_range.imp_of_mem fun hj hk hjk => ?_)
  rw [List.mem_range] at hj hk
  exact nth_ne hjk (by omega)

end Parley.Counter

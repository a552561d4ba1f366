import Mathlib.Tactic.SplitIfs
import Parley.Json.Numeral
import Parley.Proofs.Strings

/-!
# Integers and their written forms

- `IsAfterValue`: what may stand behind a value in compact form. It ends a number.
- `gather_digits`: the value of digits.
- `readNumber_whole`: the integer of an integer's text.
-/

namespace Parley.Json

/-! ## Digits -/

theorem isDigit_iff {c : Char} : c.isDigit = true ↔ 0x30 ≤ c.toNat ∧ c.toNat ≤ 0x39 := by
  simp [Char.isDigit, UInt32.le_iff_toNat_le]

/-- The digits of a number above 0 do not start with a 0. -/
theorem head?_toDigits {n : Nat} (h : 0 < n) : (Nat.toDigits 10 n).head? ≠ some '0' := by
  induction n using Nat.strongRecOn with
  | _ n ih =>
    rw [Nat.toDigits_eq_if (by omega)]
    split_ifs with hn
    · have hd : ∀ n : Nat, n < 10 → 0 < n → [n.digitChar].head? ≠ some '0' := by decide
      exact hd n hn h
    · rw [List.head?_append, Option.or_of_isSome]
      · exact ih (n / 10) (by omega) (by omega)
      · rw [List.isSome_head?]
        exact Nat.toDigits_ne_nil

section

variable {c : Char} {cs : List Char} {r : List UInt8}

/-- The byte of a digit, and its value. -/
theorem utf8EncodeChar_digit (h : c.isDigit = true) :
    ∃ b, String.utf8EncodeChar c = [b] ∧ isDigit b = true ∧ b.toNat = c.toNat := by
  obtain ⟨h₁, h₂⟩ := isDigit_iff.mp h
  have hb : (UInt8.ofNat c.toNat).toNat = c.toNat := Utf8.toNat_ofNat (by omega)
  refine ⟨_, Utf8.utf8EncodeChar_of_lt (by omega), ?_, hb⟩
  rw [isDigit, Bool.and_eq_true, decide_eq_true_eq, decide_eq_true_eq, UInt8.le_iff_toNat_le,
    UInt8.le_iff_toNat_le, hb]
  exact ⟨h₁, h₂⟩

theorem le_ofDigitChars (cs : List Char) (s : Nat) : s ≤ Nat.ofDigitChars 10 cs s := by
  rw [Nat.ofDigitChars_eq_ofDigitChars_zero]
  exact Nat.le_add_right_of_le (Nat.le_mul_of_pos_left s (Nat.pow_pos (by omega)))

/-- What may stand behind a value in compact form: a comma, a closing bracket, or nothing. -/
def IsAfterValue (r : List UInt8) : Prop :=
  ∀ b ∈ r.head?, b = 0x2C ∨ b = 0x5D ∨ b = 0x7D

theorem IsAfterValue.startsWith (h : IsAfterValue r) {f : UInt8 → Bool} (hf : f 0x2C = false)
    (hf' : f 0x5D = false) (hf'' : f 0x7D = false) (p : Place) :
    (Cursor.mk r p).startsWith f = false := by
  cases r with
  | nil => rfl
  | cons b r =>
    show f b = false
    rcases h b rfl with rfl | rfl | rfl
    · exact hf
    · exact hf'
    · exact hf''

/-- Digits are gathered as long as 64 bits hold them. -/
theorem gather_digits (hcs : ∀ c ∈ cs, c.isDigit = true) (hr : IsAfterValue r) {s : Nat}
    (hs : Nat.ofDigitChars 10 cs s < 0x10000000000000000) (p : Place) :
    gather s (Utf8.encodeChars cs ++ r) p =
      (Nat.ofDigitChars 10 cs s, cs.length, ⟨r, p.past (Utf8.encodeChars cs)⟩) := by
  -- Digit by digit; the bound on the value makes every step fit.
  induction cs generalizing s p with
  | nil =>
    have hd := hr.startsWith (f := isDigit) rfl rfl rfl p
    cases r with
    | nil => rfl
    | cons b r =>
      rw [Utf8.encodeChars_nil, List.nil_append, gather, show isDigit b = false from hd]
      rfl
  | cons c cs ih =>
    obtain ⟨b, hb, hd, hv⟩ := utf8EncodeChar_digit (hcs c List.mem_cons_self)
    rw [Nat.ofDigitChars_cons] at hs
    have hn : s * 10 + (b.toNat - 0x30) = 10 * s + (c.toNat - '0'.toNat) := by
      rw [hv, Nat.mul_comm]
      rfl
    have hlt := Nat.lt_of_le_of_lt (le_ofDigitChars cs _) hs
    rw [Utf8.encodeChars_cons, hb, List.singleton_append, List.cons_append, gather, hn, hd]
    simp only [Bool.true_and, decide_eq_true_eq, if_pos hlt]
    rw [ih (fun d hd => hcs d (List.mem_cons_of_mem _ hd)) hs]
    rfl

end

theorem readNumber_cons (positive : Bool) {b : UInt8} (hb : b ≠ 0x30) (hd : isDigit b = true)
    (bs : List UInt8) (p : Place) :
    readNumber positive ⟨b :: bs, p⟩ =
      let g := gather (b.toNat - 0x30) bs (p.after b)
      readAfterInteger positive g.1 g.2.2 := by
  simp [readNumber, hb, hd, Cursor.bump]

/-- A number is read back from its digits, up to the decision what it is. -/
theorem readNumber_digits (positive : Bool) {n : Nat} (hn : n < 0x10000000000000000)
    {r : List UInt8} (hr : IsAfterValue r) (p : Place) :
    readNumber positive ⟨Utf8.encodeChars (Nat.toDigits 10 n) ++ r, p⟩ =
      readAfterInteger positive n ⟨r, p.past (Utf8.encodeChars (Nat.toDigits 10 n))⟩ := by
  -- Zero is one digit and may not be followed by another, every other number begins with a digit
  -- that is not zero.
  rcases Nat.eq_zero_or_pos n with rfl | hpos
  · have hd := hr.startsWith (f := isDigit) rfl rfl rfl (p.after 0x30)
    show (if (Cursor.mk r (p.after 0x30)).startsWith isDigit then _ else _) = _
    rw [if_neg (by rw [hd]; rintro ⟨⟩)]
    rfl
  · have hall : ∀ c ∈ Nat.toDigits 10 n, c.isDigit = true := fun c hc =>
      Nat.isDigit_of_mem_toDigits (by omega) (by omega) hc
    have hval : Nat.ofDigitChars 10 (Nat.toDigits 10 n) 0 = n :=
      Nat.ofDigitChars_toDigits (by omega) (by omega)
    have hhead := head?_toDigits hpos
    cases hds : Nat.toDigits 10 n with
    | nil => exact absurd hds Nat.toDigits_ne_nil
    | cons c cs =>
      rw [hds] at hall hval hhead
      obtain ⟨b, hb, hd, hv⟩ := utf8EncodeChar_digit (hall c List.mem_cons_self)
      have hne : b ≠ 0x30 := by
        rintro rfl
        exact hhead (congrArg some (Char.toNat_inj.mp hv.symm))
      rw [Nat.ofDigitChars_cons, Nat.mul_zero, Nat.zero_add] at hval
      have hg := gather_digits (fun d hd => hall d (List.mem_cons_of_mem _ hd)) hr
        (s := b.toNat - 0x30) (by rw [hv]; exact hval ▸ hn) (p.after b)
      rw [Utf8.encodeChars_cons, hb]
      rw [List.singleton_append, List.cons_append, readNumber_cons positive hne hd, hg, hv]
      exact congrArg (readAfterInteger positive · _) hval

/-- An integer is read back from its text. -/
theorem readNumber_whole (w : Whole) {r : List UInt8} (hr : IsAfterValue r) (p : Place) :
    let digits := Utf8.encodeChars (Nat.toDigits 10 w.val.natAbs)
    readNumber (decide (0 ≤ w.val)) ⟨digits ++ r, p⟩ = .ok (.whole w, ⟨r, p.past digits⟩) := by
  intro digits
  have hl := w.lower
  have hu := w.upper
  rw [readNumber_digits _ (by omega) hr, readAfterInteger,
    hr.startsWith (f := isDigit) rfl rfl rfl, hr.startsWith (f := (· = 0x2E)) rfl rfl rfl,
    hr.startsWith (f := isExponentMark) rfl rfl rfl]
  simp only [Bool.false_eq_true, if_false]
  by_cases h : 0 ≤ w.val
  · rw [decide_eq_true h, if_pos rfl, Int.natAbs_of_nonneg h, Whole.ofInt?_val]
  · rw [decide_eq_false h, if_neg (by rintro ⟨⟩), if_neg (by omega),
      Int.ofNat_natAbs_of_nonpos (by omega), Int.neg_neg, Whole.ofInt?_val]

end Parley.Json

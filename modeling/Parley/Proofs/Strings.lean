import Parley.Json.Printer
import Parley.Json.Text
import Parley.Proofs.Characters

/-!
# Strings and their written forms

Whatever a string says, keys that look like headers included, its written form is read back.

- `Place.past`: the place after a series of bytes.
- `readString_written`: the text of a written string, and the cursor behind its closing quote.
-/

namespace Parley.Json

/-- The place after a series of bytes. -/
def Place.past (p : Place) (bs : List UInt8) : Place :=
  bs.foldl Place.after p

namespace Place

@[simp] theorem past_nil (p : Place) : p.past [] = p := rfl

@[simp] theorem past_cons (p : Place) (b : UInt8) (bs : List UInt8) :
    p.past (b :: bs) = (p.after b).past bs := rfl

theorem past_append (p : Place) (bs cs : List UInt8) : p.past (bs ++ cs) = (p.past bs).past cs :=
  List.foldl_append

end Place

/-! ## One character -/

/-- The bytes of an ordinary text inside a string stand for themselves. -/
theorem readStringFrom_plain {bs : List UInt8} (h : ∀ b ∈ bs, b ≠ 0x22 ∧ b ≠ 0x5C ∧ ¬b < 0x20)
    (r : List UInt8) (p : Place) (acc : List UInt8) :
    readStringFrom (bs ++ r) p .plain acc =
      readStringFrom r (p.past bs) .plain (bs.reverse ++ acc) := by
  induction bs generalizing p acc with
  | nil => rfl
  | cons b bs ih =>
    obtain ⟨h₁, h₂, h₃⟩ := h b List.mem_cons_self
    rw [List.cons_append, readStringFrom, if_neg h₁, if_neg h₂, if_neg h₃,
      ih fun c hc => h c (List.mem_cons_of_mem _ hc), List.reverse_cons, List.append_assoc]
    rfl

/-- An escape of one letter. -/
theorem readStringFrom_simple {b e : UInt8} (hb : b ≠ 0x75) (h : simpleEscape? b = some e)
    (r : List UInt8) (p : Place) (acc : List UInt8) :
    readStringFrom (0x5C :: b :: r) p .plain acc =
      readStringFrom r (p.past [0x5C, b]) .plain (e :: acc) := by
  simp [readStringFrom, hb, h]

theorem digitChar_lt {n : Nat} (h : n < 16) : n.digitChar.toNat < 0x80 := by
  revert h n
  decide

/-- The digits below 16 are read back. -/
theorem hexValue?_digitChar {n : Nat} (h : n < 16) :
    hexValue? (UInt8.ofNat n.digitChar.toNat) = some n := by
  revert h n
  decide

/-- An escape by the code of a character below U+0100. -/
theorem readStringFrom_hex {n : Nat} (h : n < 0x100) (r : List UInt8) (p : Place)
    (acc : List UInt8) :
    let written : List UInt8 := [0x5C, 0x75, 0x30, 0x30, UInt8.ofNat (n / 16).digitChar.toNat,
      UInt8.ofNat (n % 16).digitChar.toNat]
    readStringFrom (written ++ r) p .plain acc =
      readStringFrom r (p.past written) .plain
        ((String.utf8EncodeChar (Char.ofNat n)).reverse ++ acc) := by
  intro written
  -- The two digits are read back as the number, behind two zeros.
  have hw : hexWord? (written.drop 2).reverse = some n := by
    have h₀ : hexValue? 0x30 = some 0 := by decide
    have h₁ : hexValue? (UInt8.ofNat (n / 16).digitChar.toNat) = some (n / 16) :=
      hexValue?_digitChar (by omega)
    have h₂ : hexValue? (UInt8.ofNat (n % 16).digitChar.toNat) = some (n % 16) :=
      hexValue?_digitChar (by omega)
    simp only [written, hexWord?, List.drop_succ_cons, List.drop_zero, List.reverse_reverse,
      List.foldl_cons, List.foldl_nil, h₀, h₁, h₂, Option.map_some, Option.bind_some,
      Option.some.injEq]
    omega
  have ha : afterHex none n acc = .ok (.plain, pushCode n acc) := by
    rw [afterHex, if_neg (by simp; omega), if_neg (by simp; omega)]
  simp only [written, List.drop_succ_cons, List.drop_zero, List.reverse_cons, List.reverse_nil,
    List.nil_append, List.cons_append] at hw
  simp [written, readStringFrom, hw, ha, pushCode]

/-- The written form of a character is read back. -/
theorem readStringFrom_escapeChar (c : Char) (r : List UInt8) (p : Place) (acc : List UInt8) :
    readStringFrom (Utf8.encodeChars (escapeChar c) ++ r) p .plain acc =
      readStringFrom r (p.past (Utf8.encodeChars (escapeChar c))) .plain
        ((String.utf8EncodeChar c).reverse ++ acc) := by
  rw [escapeChar]
  split_ifs with h₁ h₂ h₃ h₄ h₅ h₆ h₇ h₈
  · subst h₁
    exact readStringFrom_simple (by decide) rfl r p acc
  · subst h₂
    exact readStringFrom_simple (by decide) rfl r p acc
  · -- The bytes of the character itself, none of which means anything else inside a string.
    rw [Utf8.encodeChars_cons, Utf8.encodeChars_nil, List.append_nil]
    refine readStringFrom_plain (fun b hb => ?_) r p acc
    rcases Nat.lt_or_ge c.toNat 0x80 with h | h
    · have hne : c.toNat ≠ 0x22 ∧ c.toNat ≠ 0x5C :=
        ⟨fun he => h₁ (Char.toNat_inj.mp he), fun he => h₂ (Char.toNat_inj.mp he)⟩
      rw [Utf8.utf8EncodeChar_of_lt h, List.mem_singleton] at hb
      rw [hb, UInt8.lt_iff_toNat_lt, ne_eq, ne_eq, ← UInt8.toNat_inj, ← UInt8.toNat_inj,
        Utf8.toNat_ofNat (by omega)]
      exact ⟨hne.1, hne.2, Nat.not_lt.mpr h₃⟩
    · have hb := Utf8.le_of_mem_utf8EncodeChar h hb
      rw [UInt8.lt_iff_toNat_lt, ne_eq, ne_eq, ← UInt8.toNat_inj, ← UInt8.toNat_inj]
      exact ⟨by show ¬b.toNat = 34; omega, by show ¬b.toNat = 92; omega,
        by show ¬b.toNat < 32; omega⟩
  · subst h₄
    exact readStringFrom_simple (by decide) rfl r p acc
  · subst h₅
    exact readStringFrom_simple (by decide) rfl r p acc
  · subst h₆
    exact readStringFrom_simple (by decide) rfl r p acc
  · obtain rfl : c = Char.ofNat 0x08 := by rw [← h₇, Char.ofNat_toNat]
    exact readStringFrom_simple (by decide) rfl r p acc
  · obtain rfl : c = Char.ofNat 0x0C := by rw [← h₈, Char.ofNat_toNat]
    exact readStringFrom_simple (by decide) rfl r p acc
  · have h := readStringFrom_hex (n := c.toNat) (by omega) r p acc
    rw [Char.ofNat_toNat] at h
    have hd : ∀ {n : Nat}, n < 16 →
        String.utf8EncodeChar n.digitChar = [UInt8.ofNat n.digitChar.toNat] :=
      fun hn => Utf8.utf8EncodeChar_of_lt (digitChar_lt hn)
    have hw : Utf8.encodeChars ['\\', 'u', '0', '0', (c.toNat / 16).digitChar,
        (c.toNat % 16).digitChar] = [0x5C, 0x75, 0x30, 0x30,
          UInt8.ofNat (c.toNat / 16).digitChar.toNat,
          UInt8.ofNat (c.toNat % 16).digitChar.toNat] := by
      simp only [Utf8.encodeChars_cons, Utf8.encodeChars_nil, hd (show c.toNat / 16 < 16 by omega),
        hd (show c.toNat % 16 < 16 by omega)]
      rfl
    rw [hw]
    exact h

/-! ## A whole string -/

theorem readStringFrom_written (cs : List Char) (r : List UInt8) (p : Place) (acc : List UInt8) :
    readStringFrom (Utf8.encodeChars (cs.flatMap escapeChar) ++ r) p .plain acc =
      readStringFrom r (p.past (Utf8.encodeChars (cs.flatMap escapeChar))) .plain
        ((Utf8.encodeChars cs).reverse ++ acc) := by
  induction cs generalizing p acc with
  | nil => rfl
  | cons c cs ih =>
    rw [List.flatMap_cons, Utf8.encodeChars_append, List.append_assoc, readStringFrom_escapeChar,
      ih, Place.past_append, Utf8.encodeChars_cons, List.reverse_append, List.append_assoc]

/-- The bytes of a string behind its opening quote. -/
def writtenTail (s : String) : List UInt8 :=
  Utf8.encodeChars (s.toList.flatMap escapeChar) ++ [0x22]

theorem encodeChars_renderString (s : String) :
    Utf8.encodeChars (renderString s) = 0x22 :: writtenTail s := by
  rw [renderString, List.cons_append, Utf8.encodeChars_cons, Utf8.encodeChars_append]
  rfl

/-- A string is read back from its written form. -/
theorem readString_written (s : String) (r : List UInt8) (p : Place) :
    readString ⟨writtenTail s ++ r, p⟩ = .ok (s, ⟨r, p.past (writtenTail s)⟩) := by
  have h : readStringFrom (writtenTail s ++ r) p .plain [] =
      .ok (Utf8.encode s, ⟨r, p.past (writtenTail s)⟩) := by
    rw [writtenTail, List.append_assoc, readStringFrom_written, Place.past_append,
      List.singleton_append, readStringFrom, if_pos rfl, List.append_nil, List.reverse_reverse]
    rfl
  rw [readString]
  simp only [h, Utf8.decode?_encode]

end Parley.Json

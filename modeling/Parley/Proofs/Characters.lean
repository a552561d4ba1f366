import Mathlib.Tactic.SplitIfs
import Parley.Text.Utf8

/-!
# Text and its bytes

Every text is read back from its bytes, whatever characters it is made of, and no other bytes are
read as a text.

- `pieces_utf8EncodeChar`: the bytes of a character are one piece, that character.
- `utf8EncodeChar_one`, …, `utf8EncodeChar_four`: the bytes of the character of a piece.
- `decode_encodeChars`: the text of the bytes of a text; `decode_eq_ok` is both ways.
-/

namespace Parley.Utf8

/-! ## The bytes of one character -/

theorem toNat_ofNat {n : Nat} (h : n < 256) : (UInt8.ofNat n).toNat = n := by
  simpa using Nat.mod_eq_of_lt h

/-- A tail byte lies between `0x80` and `0xBF`. -/
theorem isTail_iff {b : UInt8} : isTail b = true ↔ 0x80 ≤ b.toNat ∧ b.toNat ≤ 0xBF := by
  simp [isTail, UInt8.le_iff_toNat_le]

/-- The second byte of a sequence lies between bounds that the first one sets. -/
theorem isSecond_iff {a b : UInt8} :
    isSecond a b = true ↔
      (if a.toNat = 0xE0 then 0xA0 ≤ b.toNat ∧ b.toNat ≤ 0xBF
      else if a.toNat = 0xED then 0x80 ≤ b.toNat ∧ b.toNat ≤ 0x9F
      else if a.toNat = 0xF0 then 0x90 ≤ b.toNat ∧ b.toNat ≤ 0xBF
      else if a.toNat = 0xF4 then 0x80 ≤ b.toNat ∧ b.toNat ≤ 0x8F
      else 0x80 ≤ b.toNat ∧ b.toNat ≤ 0xBF) := by
  rw [isSecond]
  simp only [← UInt8.toNat_inj]
  split_ifs <;> simp_all [isTail, UInt8.le_iff_toNat_le]

section

variable {a b c d : UInt8} (r : List UInt8)

/-- A byte below `0x80` is a character by itself. -/
theorem pieces_one (ha : a.toNat < 0x80) :
    pieces (a :: r) = .char (Char.ofNat a.toNat) :: pieces r := by
  rw [pieces.eq_def]
  simp [UInt8.lt_iff_toNat_lt, ha]

/-- Two bytes of the right kinds are one character of up to eleven bits. -/
theorem pieces_two (ha : 0xC2 ≤ a.toNat) (ha' : a.toNat < 0xE0) (hb : isTail b = true) :
    pieces (a :: b :: r) =
      .char (Char.ofNat (a.toNat % 0x20 * 0x40 + low6 b)) :: pieces r := by
  have h₁ : ¬a.toNat < 0x80 := by omega
  have h₂ : ¬a.toNat < 0xC2 := by omega
  rw [pieces.eq_def]
  simp [UInt8.lt_iff_toNat_lt, h₁, h₂, ha', hb]

/-- Three bytes of the right kinds are one character of up to sixteen bits. -/
theorem pieces_three (ha : 0xE0 ≤ a.toNat) (ha' : a.toNat < 0xF0) (hb : isSecond a b = true)
    (hc : isTail c = true) :
    pieces (a :: b :: c :: r) =
      .char (Char.ofNat ((a.toNat % 0x10 * 0x40 + low6 b) * 0x40 + low6 c)) :: pieces r := by
  have h₁ : ¬a.toNat < 0x80 := by omega
  have h₂ : ¬a.toNat < 0xC2 := by omega
  have h₃ : ¬a.toNat < 0xE0 := by omega
  rw [pieces.eq_def]
  simp [UInt8.lt_iff_toNat_lt, h₁, h₂, h₃, ha', hb, hc]

/-- Four bytes of the right kinds are one character of up to twenty-one bits. -/
theorem pieces_four (ha : 0xF0 ≤ a.toNat) (ha' : a.toNat < 0xF5) (hb : isSecond a b = true)
    (hc : isTail c = true) (hd : isTail d = true) :
    pieces (a :: b :: c :: d :: r) =
      .char (Char.ofNat (((a.toNat % 0x08 * 0x40 + low6 b) * 0x40 + low6 c) * 0x40 + low6 d))
        :: pieces r := by
  have h₁ : ¬a.toNat < 0x80 := by omega
  have h₂ : ¬a.toNat < 0xC2 := by omega
  have h₃ : ¬a.toNat < 0xE0 := by omega
  have h₄ : ¬a.toNat < 0xF0 := by omega
  rw [pieces.eq_def]
  simp [UInt8.lt_iff_toNat_lt, h₁, h₂, h₃, h₄, ha', hb, hc, hd]

end

/-- The bytes of a character are one piece, whatever follows them. -/
theorem pieces_utf8EncodeChar (x : Char) (r : List UInt8) :
    pieces (String.utf8EncodeChar x ++ r) = .char x :: pieces r := by
  -- The gap of the surrogates is what the bounds of the second byte are about, in the cases of
  -- three bytes.
  have hx : x.toNat < 0xD800 ∨ 0xDFFF < x.toNat ∧ x.toNat < 0x110000 := x.valid
  have char_eq : ∀ {n : Nat}, n = x.toNat → Char.ofNat n = x := by
    rintro _ rfl
    exact Char.ofNat_toNat x
  rw [String.utf8EncodeChar, show x.val.toNat = x.toNat from rfl]
  -- By the number of bytes that the character takes. In each case the bytes are what the piece asks
  -- for, and the bits put together are the character.
  split_ifs with h₁ h₂ h₃
  · rw [List.singleton_append, pieces_one, char_eq]
    all_goals rw [toNat_ofNat (by omega)]
    omega
  · have ha : (UInt8.ofNat (x.toNat / 64 % 32 + 192)).toNat = x.toNat / 64 + 192 := by
      rw [toNat_ofNat] <;> omega
    have hb : (UInt8.ofNat (x.toNat % 64 + 128)).toNat = x.toNat % 64 + 128 :=
      toNat_ofNat (by omega)
    rw [List.cons_append, List.singleton_append, pieces_two, char_eq]
    · rw [ha, low6, hb]
      omega
    · omega
    · omega
    · rw [isTail_iff, hb]
      omega
  · have ha : (UInt8.ofNat (x.toNat / 4096 % 16 + 224)).toNat = x.toNat / 4096 + 224 := by
      rw [toNat_ofNat] <;> omega
    have hb : (UInt8.ofNat (x.toNat / 64 % 64 + 128)).toNat = x.toNat / 64 % 64 + 128 :=
      toNat_ofNat (by omega)
    have hc : (UInt8.ofNat (x.toNat % 64 + 128)).toNat = x.toNat % 64 + 128 :=
      toNat_ofNat (by omega)
    rw [List.cons_append, List.cons_append, List.singleton_append, pieces_three, char_eq]
    · rw [ha, low6, hb, low6, hc]
      omega
    · omega
    · omega
    · rw [isSecond_iff, ha, hb]
      split_ifs <;> omega
    · rw [isTail_iff, hc]
      omega
  · have ha : (UInt8.ofNat (x.toNat / 262144 % 8 + 240)).toNat = x.toNat / 262144 + 240 := by
      rw [toNat_ofNat] <;> omega
    have hb : (UInt8.ofNat (x.toNat / 4096 % 64 + 128)).toNat = x.toNat / 4096 % 64 + 128 :=
      toNat_ofNat (by omega)
    have hc : (UInt8.ofNat (x.toNat / 64 % 64 + 128)).toNat = x.toNat / 64 % 64 + 128 :=
      toNat_ofNat (by omega)
    have hd : (UInt8.ofNat (x.toNat % 64 + 128)).toNat = x.toNat % 64 + 128 :=
      toNat_ofNat (by omega)
    rw [List.cons_append, List.cons_append, List.cons_append, List.singleton_append, pieces_four,
      char_eq]
    · rw [ha, low6, hb, low6, hc, low6, hd]
      omega
    · omega
    · omega
    · rw [isSecond_iff, ha, hb]
      split_ifs <;> omega
    · rw [isTail_iff, hc]
      omega
    · rw [isTail_iff, hd]
      omega

/-! ## The bytes of a text -/

/-- Characters that are written are read first, and then the rest. -/
theorem pieces_encodeChars_append (cs : List Char) (r : List UInt8) :
    pieces (encodeChars cs ++ r) = cs.map .char ++ pieces r := by
  induction cs with
  | nil => rfl
  | cons c cs ih =>
    rw [encodeChars_cons, List.append_assoc, pieces_utf8EncodeChar, ih]
    rfl

/-- Pieces that are all characters are these characters. -/
theorem ofPieces_map_char (n : Nat) (cs : List Char) : ofPieces n (cs.map .char) = .ok cs := by
  induction cs generalizing n with
  | nil => rfl
  | cons c cs ih => rw [List.map_cons, ofPieces, ih, Except.map]

/-- A text is what its bytes say. -/
theorem decode_encodeChars (cs : List Char) : decode (encodeChars cs) = .ok cs := by
  have h := pieces_encodeChars_append cs []
  rw [List.append_nil, pieces, List.append_nil] at h
  rw [decode, h, ofPieces_map_char]

/-- A text that is written is read back. -/
theorem decode?_encode (s : String) : decode? (encode s) = some s := by
  rw [decode?, encode, decode_encodeChars]
  exact congrArg some String.ofList_toList

/-- A text in which only characters up to U+007F occur has one byte for each. -/
theorem utf8EncodeChar_of_lt {c : Char} (h : c.toNat < 0x80) :
    String.utf8EncodeChar c = [UInt8.ofNat c.toNat] := by
  rw [String.utf8EncodeChar, if_pos (by exact Nat.le_of_lt_succ h)]
  rfl

/-- The other characters have no byte below 0x80. -/
theorem le_of_mem_utf8EncodeChar {c : Char} {b : UInt8} (h : 0x80 ≤ c.toNat)
    (hb : b ∈ String.utf8EncodeChar c) : 0x80 ≤ b.toNat := by
  rw [String.utf8EncodeChar, show c.val.toNat = c.toNat from rfl] at hb
  split_ifs at hb
  · omega
  all_goals
    simp only [List.mem_cons, List.not_mem_nil, or_false] at hb
    rcases hb with rfl | rfl | rfl | rfl <;> rw [toNat_ofNat] <;> omega

/-! ## The text of some bytes -/

/-- A character is the one of its code. -/
theorem toNat_charOfNat {n : Nat} (h : n < 0xD800 ∨ 0xDFFF < n ∧ n < 0x110000) :
    (Char.ofNat n).toNat = n := by
  rw [Char.ofNat, dif_pos h]
  show (UInt32.ofNatLT n _).toNat = n
  exact UInt32.toNat_ofNatLT

/-- A byte is the one of its value. -/
theorem ofNat_eq {n : Nat} {b : UInt8} (h : n = b.toNat) : UInt8.ofNat n = b := by
  rw [h, UInt8.ofNat_toNat]

section

variable {a b c d : UInt8}

/-- A character below `0x80` is written as one byte. -/
theorem utf8EncodeChar_one (ha : a.toNat < 0x80) :
    String.utf8EncodeChar (Char.ofNat a.toNat) = [a] := by
  have h := toNat_charOfNat (n := a.toNat) (by omega)
  rw [utf8EncodeChar_of_lt (by rw [h]; exact ha), h, UInt8.ofNat_toNat]

/-- A character read from two bytes is written as these two. -/
theorem utf8EncodeChar_two (ha : 0xC2 ≤ a.toNat) (ha' : a.toNat < 0xE0) (hb : isTail b = true) :
    String.utf8EncodeChar (Char.ofNat (a.toNat % 0x20 * 0x40 + low6 b)) = [a, b] := by
  rw [isTail_iff] at hb
  have h := toNat_charOfNat (n := a.toNat % 0x20 * 0x40 + low6 b) (by rw [low6]; omega)
  rw [low6] at h ⊢
  rw [String.utf8EncodeChar, show ∀ x : Char, x.val.toNat = x.toNat from fun _ => rfl, h,
    if_neg (by omega), if_pos (by omega)]
  simp only [List.cons.injEq, and_true]
  refine ⟨ofNat_eq ?_, ofNat_eq ?_⟩ <;> omega

/-- A character read from three bytes is written as these three. -/
theorem utf8EncodeChar_three (ha : 0xE0 ≤ a.toNat) (ha' : a.toNat < 0xF0)
    (hb : isSecond a b = true) (hc : isTail c = true) :
    String.utf8EncodeChar
      (Char.ofNat ((a.toNat % 0x10 * 0x40 + low6 b) * 0x40 + low6 c)) = [a, b, c] := by
  rw [isTail_iff] at hc
  rw [isSecond_iff] at hb
  -- The second byte rules out overlong forms and surrogates.
  have hn : 0x800 ≤ (a.toNat % 0x10 * 0x40 + b.toNat % 0x40) * 0x40 + c.toNat % 0x40 ∧
      ((a.toNat % 0x10 * 0x40 + b.toNat % 0x40) * 0x40 + c.toNat % 0x40 < 0xD800 ∨
        0xDFFF < (a.toNat % 0x10 * 0x40 + b.toNat % 0x40) * 0x40 + c.toNat % 0x40) := by
    split_ifs at hb <;> omega
  have hb' : 0x80 ≤ b.toNat ∧ b.toNat ≤ 0xBF := by
    split_ifs at hb <;> omega
  clear hb
  rw [low6, low6, String.utf8EncodeChar, show ∀ x : Char, x.val.toNat = x.toNat from fun _ => rfl,
    toNat_charOfNat (by omega), if_neg (by omega), if_neg (by omega), if_pos (by omega)]
  simp only [List.cons.injEq, and_true]
  refine ⟨ofNat_eq ?_, ofNat_eq ?_, ofNat_eq ?_⟩ <;> omega

/-- A character read from four bytes is written as these four. -/
theorem utf8EncodeChar_four (ha : 0xF0 ≤ a.toNat) (ha' : a.toNat < 0xF5)
    (hb : isSecond a b = true) (hc : isTail c = true) (hd : isTail d = true) :
    String.utf8EncodeChar
      (Char.ofNat (((a.toNat % 0x08 * 0x40 + low6 b) * 0x40 + low6 c) * 0x40 + low6 d)) =
        [a, b, c, d] := by
  rw [isTail_iff] at hc hd
  rw [isSecond_iff] at hb
  have hn : 0x10000 ≤ ((a.toNat % 0x08 * 0x40 + b.toNat % 0x40) * 0x40 + c.toNat % 0x40) * 0x40
      + d.toNat % 0x40 ∧ ((a.toNat % 0x08 * 0x40 + b.toNat % 0x40) * 0x40 + c.toNat % 0x40) * 0x40
      + d.toNat % 0x40 < 0x110000 := by
    split_ifs at hb <;> omega
  have hb' : 0x80 ≤ b.toNat ∧ b.toNat ≤ 0xBF := by
    split_ifs at hb <;> omega
  clear hb
  rw [low6, low6, low6, String.utf8EncodeChar,
    show ∀ x : Char, x.val.toNat = x.toNat from fun _ => rfl, toNat_charOfNat (.inr (by omega)),
    if_neg (by omega), if_neg (by omega), if_neg (by omega)]
  simp only [List.cons.injEq, and_true]
  refine ⟨ofNat_eq ?_, ofNat_eq ?_, ofNat_eq ?_, ofNat_eq ?_⟩ <;> omega

end

/-- Bytes without a fault are the bytes of their characters. -/
theorem eq_encodeChars_of_pieces {bs : List UInt8} {cs : List Char}
    (h : pieces bs = cs.map .char) : bs = encodeChars cs := by
  -- One more character, and the bytes behind it.
  have more : ∀ {x : Char} {r front : List UInt8} {cs : List Char},
      (∀ {ds : List Char}, pieces r = ds.map .char → r = encodeChars ds) →
      String.utf8EncodeChar x = front → Piece.char x :: pieces r = cs.map .char →
      front ++ r = encodeChars cs := by
    intro x r front cs ih hx h
    cases cs with
    | nil => cases h
    | cons c cs =>
      obtain ⟨hc, hr⟩ := List.cons.inj h
      obtain rfl := Piece.char.inj hc
      rw [encodeChars_cons, hx, ← ih hr]
  have stop : ∀ {p : Piece} {ps : List Piece} {cs : List Char}, (∀ c, p ≠ .char c) →
      p :: ps ≠ cs.map .char := by
    intro p ps cs hp h
    cases cs with
    | nil => cases h
    | cons c cs => exact hp c (List.cons.inj h).1
  fun_induction pieces bs generalizing cs with
  | case1 =>
    cases cs with
    | nil => rfl
    | cons c cs => cases h
  | case2 a r ha ih =>
    rw [UInt8.lt_iff_toNat_lt] at ha
    exact more ih (utf8EncodeChar_one ha) h
  | case5 a ha₁ ha₂ ha b r hb ih =>
    rw [UInt8.lt_iff_toNat_lt] at ha₁ ha₂ ha
    exact more ih (utf8EncodeChar_two (Nat.not_lt.mp ha₂) ha hb) h
  | case9 a ha₁ ha₂ ha₃ ha b hb c r hc ih =>
    rw [UInt8.lt_iff_toNat_lt] at ha₁ ha₂ ha₃ ha
    exact more ih (utf8EncodeChar_three (Nat.not_lt.mp ha₃) ha hb hc) h
  | case15 a ha₁ ha₂ ha₃ ha₄ ha b hb c hc d r hd ih =>
    rw [UInt8.lt_iff_toNat_lt] at ha₁ ha₂ ha₃ ha₄ ha
    exact more ih (utf8EncodeChar_four (Nat.not_lt.mp ha₄) ha hb hc hd) h
  | _ => exact absurd h (stop (by simp))

/-- A text is read only if all its pieces are characters. -/
theorem map_char_of_ofPieces {n : Nat} {ps : List Piece} {cs : List Char}
    (h : ofPieces n ps = .ok cs) : ps = cs.map .char := by
  induction ps generalizing n cs with
  | nil =>
    obtain rfl := Except.ok.inj h
    rfl
  | cons p ps ih =>
    cases p with
    | char c =>
      rw [ofPieces] at h
      cases hps : ofPieces (n + c.utf8Size) ps with
      | error e => simp [hps, Except.map] at h
      | ok ds =>
        rw [hps] at h
        obtain rfl := Except.ok.inj h
        rw [ih hps, List.map_cons]
    | stray count | cut count => cases h

/-- **Bytes are text** if they are the bytes of one. -/
theorem decode_eq_ok {bs : List UInt8} {cs : List Char} :
    decode bs = .ok cs ↔ bs = encodeChars cs := by
  refine ⟨fun h => eq_encodeChars_of_pieces (map_char_of_ofPieces h), ?_⟩
  rintro rfl
  exact decode_encodeChars cs

end Parley.Utf8

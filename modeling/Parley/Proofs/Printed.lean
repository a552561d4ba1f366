import Parley.Json.Parser
import Parley.Json.Printer
import Parley.Proofs.Numerals
import Parley.Proofs.Values

/-!
# Values and their compact forms

A value is read back from its compact form if its numbers are integers and its objects are in order.
The readers take as many bytes as were written and no more, whatever follows them.

- `readValue_render`, `readItems_render`, `readMembers_render`: one lemma for each reader, by
  recursion on what was written.
- `parse_bytes`: the value of the compact form of a value.
-/

namespace Parley.Json

/-! ## The first byte -/

section

variable {fuel depth : Nat} {b : UInt8} {bs r : List UInt8} {p : Place}

/-- A byte that is no blank stops the skipping. -/
theorem skipBlanks_cons (hb : isBlankByte b = false) :
    (Cursor.mk (b :: bs) p).skipBlanks = ⟨b :: bs, p⟩ := by
  rw [Cursor.skipBlanks, skipBlanksFrom, hb]
  rfl

/-- A quote begins a string. -/
theorem readValue_quote : readValue (fuel + 1) depth ⟨0x22 :: bs, p⟩ =
    (readString ⟨bs, p.after 0x22⟩).map fun (s, c) => (.str s, c) := rfl

/-- A minus sign begins a negative number. -/
theorem readValue_minus : readValue (fuel + 1) depth ⟨0x2D :: bs, p⟩ =
    (readNumber false ⟨bs, p.after 0x2D⟩).map fun (n, c) => (.num n, c) := rfl

/-- A bracket begins a list, one level deeper. -/
theorem readValue_list : readValue (fuel + 1) (depth + 1) ⟨0x5B :: bs, p⟩ =
    (readItems fuel depth true ⟨bs, p.after 0x5B⟩).map fun (vs, c) => (.arr vs, c) := rfl

/-- A brace begins an object, one level deeper. -/
theorem readValue_object : readValue (fuel + 1) (depth + 1) ⟨0x7B :: bs, p⟩ =
    (readMembers fuel depth true ⟨bs, p.after 0x7B⟩).map fun (ms, c) => (ofMembers ms, c) := rfl

/-- A byte that is no digit differs from each that is. -/
theorem ne_of_isDigit (hb : isDigit b = true) {d : UInt8} (hd : isDigit d = false) : b ≠ d := by
  rintro rfl
  rw [hb] at hd
  cases hd

/-- No digit is a blank. -/
theorem isBlankByte_of_isDigit (hb : isDigit b = true) : isBlankByte b = false := by
  have hne := fun d => ne_of_isDigit hb (d := d)
  simp [isBlankByte, hne 0x20 rfl, hne 0x0A rfl, hne 0x09 rfl, hne 0x0D rfl]

/-- A digit begins a number that is not negative. -/
theorem readValue_digit (hb : isDigit b = true) : readValue (fuel + 1) depth ⟨b :: bs, p⟩ =
    (readNumber true ⟨b :: bs, p⟩).map fun (n, c) => (.num n, c) := by
  have hne := fun d => ne_of_isDigit hb (d := d)
  simp only [readValue, skipBlanks_cons (isBlankByte_of_isDigit hb)]
  rw [if_neg (hne 0x6E rfl), if_neg (hne 0x74 rfl), if_neg (hne 0x66 rfl), if_neg (hne 0x2D rfl),
    if_pos hb]

/-- The digits of a number start with the byte of a digit. -/
theorem encodeChars_toDigits (n : Nat) :
    ∃ b bs, Utf8.encodeChars (Nat.toDigits 10 n) = b :: bs ∧ isDigit b = true := by
  cases hds : Nat.toDigits 10 n with
  | nil => exact absurd hds Nat.toDigits_ne_nil
  | cons c cs =>
    have hc : c.isDigit = true :=
      Nat.isDigit_of_mem_toDigits (by omega) (by omega) (hds ▸ List.mem_cons_self)
    obtain ⟨b, hb, hd, -⟩ := utf8EncodeChar_digit hc
    exact ⟨b, Utf8.encodeChars cs, by rw [Utf8.encodeChars_cons, hb]; rfl, hd⟩

/-- A number is read back. -/
theorem readValue_whole (w : Whole) (hr : IsAfterValue r) :
    readValue (fuel + 1) depth ⟨Utf8.encodeChars (renderInt w.val) ++ r, p⟩ =
      .ok (.num (.whole w), ⟨r, p.past (Utf8.encodeChars (renderInt w.val))⟩) := by
  have hn := readNumber_whole w hr
  rw [renderInt]
  by_cases h : w.val < 0
  · rw [decide_eq_false (by omega)] at hn
    rw [if_pos h, Utf8.encodeChars_cons]
    show readValue _ _ ⟨0x2D :: _, p⟩ = _
    rw [readValue_minus]
    exact congrArg (Except.map _) (hn (p.after 0x2D))
  · obtain ⟨b, bs, hb, hd⟩ := encodeChars_toDigits w.val.natAbs
    rw [decide_eq_true (by omega)] at hn
    rw [if_neg h, hb, List.cons_append, readValue_digit hd]
    rw [hb] at hn
    exact congrArg (Except.map _) (hn p)

/-- What is written for a value starts neither with a blank nor with a closing bracket. -/
theorem encodeChars_render (v : Json) (hv : v.isInteger = true) :
    ∃ b bs, Utf8.encodeChars v.render = b :: bs ∧ isBlankByte b = false ∧ b ≠ 0x5D := by
  cases v with
  | null => exact ⟨_, _, rfl, rfl, by decide⟩
  | bool b => cases b <;> exact ⟨_, _, rfl, rfl, by decide⟩
  | str s => exact ⟨_, _, encodeChars_renderString s, rfl, by decide⟩
  | arr vs => exact ⟨_, _, rfl, rfl, by decide⟩
  | obj ms => exact ⟨_, _, rfl, rfl, by decide⟩
  | num n =>
    cases n with
    | real x => cases hv
    | whole w =>
      by_cases h : w.val < 0
      · refine ⟨0x2D, Utf8.encodeChars (Nat.toDigits 10 w.val.natAbs), ?_, rfl, by decide⟩
        rw [render, Number.render, renderInt, if_pos h]
        rfl
      · obtain ⟨b, bs, hb, hd⟩ := encodeChars_toDigits w.val.natAbs
        refine ⟨b, bs, ?_, isBlankByte_of_isDigit hd, ne_of_isDigit hd rfl⟩
        rw [render, Number.render, renderInt, if_neg h, hb]

/-! ## Lists and objects -/

/-- A closing bracket ends a list, after an item or at once. -/
theorem nextItem_end (first : Bool) :
    nextItem first ⟨0x5D :: r, p⟩ = .ok (false, ⟨r, p.after 0x5D⟩) := by
  cases first <;> rfl

/-- The first item of a list needs no comma. -/
theorem nextItem_first (hb : isBlankByte b = false) (hne : b ≠ 0x5D) :
    nextItem true ⟨b :: bs, p⟩ = .ok (true, ⟨b :: bs, p⟩) := by
  simp [nextItem, skipBlanks_cons hb, hne]

/-- Every item but the first has a comma before it. -/
theorem nextItem_comma (hb : isBlankByte b = false) (hne : b ≠ 0x5D) :
    nextItem false ⟨0x2C :: b :: bs, p⟩ = .ok (true, ⟨b :: bs, p.after 0x2C⟩) := by
  have hc : isBlankByte 0x2C = false := rfl
  simp [nextItem, skipBlanks_cons hc, Cursor.bump, skipBlanks_cons hb, hne]

/-- A closing brace ends an object. -/
theorem nextMember_end (first : Bool) :
    nextMember first ⟨0x7D :: r, p⟩ = .ok (false, ⟨r, p.after 0x7D⟩) := by
  cases first <;> rfl

/-- The first member of an object begins with the quote of its key. -/
theorem nextMember_first : nextMember true ⟨0x22 :: bs, p⟩ = .ok (true, ⟨0x22 :: bs, p⟩) := rfl

/-- Every member but the first has a comma before it. -/
theorem nextMember_comma :
    nextMember false ⟨0x2C :: 0x22 :: bs, p⟩ = .ok (true, ⟨0x22 :: bs, p.after 0x2C⟩) := rfl

/-- A colon stands between key and value. -/
theorem readColon_colon : readColon ⟨0x3A :: bs, p⟩ = .ok ⟨bs, p.after 0x3A⟩ := rfl

end

/-- The comma before an item that is not the first one. -/
def separator (first : Bool) : List Char :=
  if first then [] else [',']

/-- The items of an array that are still to come, and its closing bracket. -/
def renderRest (first : Bool) : List Json → List Char
  | [] => [']']
  | v :: vs => separator first ++ (v.render ++ renderRest false vs)

/-- The members of an object that are still to come, and its closing brace. -/
def renderRestMembers (first : Bool) : List (String × Json) → List Char
  | [] => ['}']
  | (k, v) :: ms =>
    separator first ++ (renderString k ++ (':' :: (v.render ++ renderRestMembers false ms)))

/-- The items of a list are a separator in front of each, and the bracket at the end. -/
theorem renderItems_eq (vs : List Json) : renderItems vs = renderRest true vs := by
  induction vs with
  | nil => rfl
  | cons v vs ih =>
    cases vs with
    | nil => rfl
    | cons w vs => rw [renderItems, ih]; rfl

/-- The members of an object are written the same way. -/
theorem renderMembers_eq (ms : List (String × Json)) :
    renderMembers ms = renderRestMembers true ms := by
  induction ms with
  | nil => rfl
  | cons m ms ih =>
    obtain ⟨k, v⟩ := m
    cases ms with
    | nil => rfl
    | cons n ms => rw [renderMembers, ih]; rfl

/-! ## Whole values -/

/-- A number ends where a comma, a bracket or a brace begins. -/
theorem IsAfterValue.cons {b : UInt8} (h : b = 0x2C ∨ b = 0x5D ∨ b = 0x7D) (r : List UInt8) :
    IsAfterValue (b :: r) := by
  rintro c hc
  obtain rfl := Option.some.inj hc
  exact h

/-- After an item comes a byte that ends a number. -/
theorem isAfterValue_rest (vs : List Json) (r : List UInt8) :
    IsAfterValue (Utf8.encodeChars (renderRest false vs) ++ r) := by
  cases vs with
  | nil => exact .cons (.inr (.inl rfl)) r
  | cons v vs => exact .cons (.inl rfl) _

/-- After a member comes a byte that ends a number. -/
theorem isAfterValue_restMembers (ms : List (String × Json)) (r : List UInt8) :
    IsAfterValue (Utf8.encodeChars (renderRestMembers false ms) ++ r) := by
  cases ms with
  | nil => exact .cons (.inr (.inr rfl)) r
  | cons m ms => exact .cons (.inl rfl) _

section

variable {fuel depth : Nat} {first : Bool}

/-- Behind its separator an item is the next item. -/
theorem nextItem_render {v : Json} (hv : v.isInteger = true) (first : Bool) (bs : List UInt8)
    (p : Place) :
    nextItem first ⟨Utf8.encodeChars (separator first) ++ (Utf8.encodeChars v.render ++ bs), p⟩ =
      .ok (true,
        ⟨Utf8.encodeChars v.render ++ bs, p.past (Utf8.encodeChars (separator first))⟩) := by
  obtain ⟨b, r, hb, hblank, hne⟩ := encodeChars_render v hv
  rw [hb, List.cons_append]
  cases first with
  | true => exact nextItem_first hblank hne
  | false => exact nextItem_comma hblank hne

/-- Behind its separator a member is the next member. -/
theorem nextMember_render (first : Bool) (bs : List UInt8) (p : Place) :
    nextMember first ⟨Utf8.encodeChars (separator first) ++ (0x22 :: bs), p⟩ =
      .ok (true, ⟨0x22 :: bs, p.past (Utf8.encodeChars (separator first))⟩) := by
  cases first with
  | true => exact nextMember_first
  | false => exact nextMember_comma

/-- One item and the rest. -/
theorem readItems_step {c c₁ c₂ c₃ : Cursor} {v : Json} {vs : List Json}
    (hn : nextItem first c = .ok (true, c₁)) (hv : readValue fuel depth c₁ = .ok (v, c₂))
    (hr : readItems fuel depth false c₂ = .ok (vs, c₃)) :
    readItems (fuel + 1) depth first c = .ok (v :: vs, c₃) := by
  simp only [readItems, hn, hv, hr, Except.map]

/-- One member and the rest. -/
theorem readMembers_step {c c₁ c₂ c₃ c₄ c₅ : Cursor} {k : String} {v : Json}
    {ms : List (String × Json)} (hn : nextMember first c = .ok (true, c₁))
    (hk : readKey c₁ = .ok (k, c₂)) (hc : readColon c₂ = .ok c₃)
    (hv : readValue fuel depth c₃ = .ok (v, c₄))
    (hr : readMembers fuel depth false c₄ = .ok (ms, c₅)) :
    readMembers (fuel + 1) depth first c = .ok ((k, v) :: ms, c₅) := by
  simp only [readMembers, hn, hk, hc, hv, hr, Except.map]

end

/-- Every text is at least one character long, which pays for one round of the reader. -/
theorem length_render_pos {v : Json} (hv : v.isInteger = true) : 0 < v.render.length := by
  obtain ⟨b, bs, hb, -⟩ := encodeChars_render v hv
  rw [List.length_pos_iff]
  intro h
  rw [h] at hb
  cases hb

/-- What is left of a list has its bracket at least. -/
theorem length_renderRest_pos (first : Bool) (vs : List Json) :
    0 < (renderRest first vs).length := by
  induction vs generalizing first with
  | nil => exact Nat.one_pos
  | cons v vs ih =>
    rw [renderRest, List.length_append, List.length_append]
    have := ih false
    omega

/-- What is left of an object has its brace at least. -/
theorem length_renderRestMembers_pos (first : Bool) (ms : List (String × Json)) :
    0 < (renderRestMembers first ms).length := by
  cases ms with
  | nil => exact Nat.one_pos
  | cons m ms =>
    rw [renderRestMembers, List.length_append, List.length_append, List.length_cons]
    omega

/-- What holds of all values inside holds of the value itself. -/
theorem all_self {f : Json → Bool} {v : Json} (h : v.all f = true) : f v = true := by
  cases v with
  | arr vs => exact (Bool.and_eq_true _ _ ▸ h).1
  | obj ms => exact (Bool.and_eq_true _ _ ▸ h).1
  | null | bool b | num n | str s => exact h

mutual

/-- A value is read back from its compact form, if the reader may open as many brackets and has as
much fuel as the form has characters. -/
theorem readValue_render (v : Json) {fuel depth : Nat} (hv : v.all isExact = true)
    (hd : v.depth ≤ depth) (hf : v.render.length ≤ fuel) {r : List UInt8} (hr : IsAfterValue r)
    (p : Place) :
    readValue fuel depth ⟨Utf8.encodeChars v.render ++ r, p⟩ =
      .ok (v, ⟨r, p.past (Utf8.encodeChars v.render)⟩) := by
  -- The structure of the value is that of the recursion: the number of characters is the fuel that
  -- it takes.
  have hi : v.isInteger = true := (Bool.and_eq_true _ _ ▸ all_self hv).1
  have hpos := length_render_pos hi
  obtain ⟨fuel, rfl⟩ : ∃ n, fuel = n + 1 := ⟨fuel - 1, by omega⟩
  match v, hv, hd, hf with
  | .null, _, _, _ => rfl
  | .bool true, _, _, _ => rfl
  | .bool false, _, _, _ => rfl
  | .num (.whole w), _, _, _ => exact readValue_whole w hr
  | .num (.real x), _, _, _ => cases hi
  | .str s, _, _, _ =>
    rw [render, encodeChars_renderString, List.cons_append, readValue_quote, readString_written]
    rfl
  -- A list takes one level of depth and one character for its bracket; the items have the rest.
  | .arr vs, hv, hd, hf =>
    rw [all, Bool.and_eq_true] at hv
    rw [Json.depth] at hd
    rw [render, List.length_cons, renderItems_eq] at hf
    obtain ⟨depth, rfl⟩ : ∃ n, depth = n + 1 := ⟨depth - 1, by omega⟩
    have hitems := readItems_render vs true hv.2 (show _ ≤ depth by omega) (show _ ≤ fuel by omega)
      r (p.after 0x5B)
    rw [render, renderItems_eq]
    show readValue _ _ ⟨0x5B :: (Utf8.encodeChars (renderRest true vs) ++ r), p⟩ = _
    rw [readValue_list, hitems]
    rfl
  -- An object does the same. What `ofMembers` makes of the members is themselves, since their keys
  -- ascend.
  | .obj ms, hv, hd, hf =>
    rw [all, Bool.and_eq_true, isExact, Bool.and_eq_true] at hv
    rw [Json.depth] at hd
    rw [render, List.length_cons, renderMembers_eq] at hf
    obtain ⟨depth, rfl⟩ : ∃ n, depth = n + 1 := ⟨depth - 1, by omega⟩
    have hmembers := readMembers_render ms true hv.2 (show _ ≤ depth by omega)
      (show _ ≤ fuel by omega) r (p.after 0x7B)
    have hobj := ofMembers_of_ascending (of_decide_eq_true hv.1.2)
    rw [render, renderMembers_eq]
    show readValue _ _ ⟨0x7B :: (Utf8.encodeChars (renderRestMembers true ms) ++ r), p⟩ = _
    rw [readValue_object, hmembers]
    show Except.ok (ofMembers ms, _) = _
    rw [hobj]
    rfl

/-- The items of an array are read back. -/
theorem readItems_render (vs : List Json) (first : Bool) {fuel depth : Nat}
    (hv : allItems isExact vs = true) (hd : depthItems vs ≤ depth)
    (hf : (renderRest first vs).length ≤ fuel) (r : List UInt8) (p : Place) :
    readItems fuel depth first ⟨Utf8.encodeChars (renderRest first vs) ++ r, p⟩ =
      .ok (vs, ⟨r, p.past (Utf8.encodeChars (renderRest first vs))⟩) := by
  have hpos := length_renderRest_pos first vs
  obtain ⟨fuel, rfl⟩ : ∃ n, fuel = n + 1 := ⟨fuel - 1, by omega⟩
  match vs, hv, hd, hf with
  | [], _, _, _ =>
    show readItems (fuel + 1) depth first ⟨0x5D :: r, p⟩ = _
    rw [readItems, nextItem_end]
    rfl
  | v :: vs, hv, hd, hf =>
    rw [allItems, Bool.and_eq_true] at hv
    rw [depthItems] at hd
    rw [renderRest, List.length_append, List.length_append] at hf
    have hi : v.isInteger = true := (Bool.and_eq_true _ _ ▸ all_self hv.1).1
    -- The item and what comes after it share the fuel, so each has less than the whole.
    have hlen := length_renderRest_pos false vs
    have hlen' := length_render_pos hi
    have hnext := nextItem_render hi first (Utf8.encodeChars (renderRest false vs) ++ r) p
    have hvalue := readValue_render v hv.1 (show _ ≤ depth by omega) (show _ ≤ fuel by omega)
      (isAfterValue_rest vs r) (p.past (Utf8.encodeChars (separator first)))
    have hrest := readItems_render vs false hv.2 (show _ ≤ depth by omega) (show _ ≤ fuel by omega)
      r ((p.past (Utf8.encodeChars (separator first))).past (Utf8.encodeChars v.render))
    rw [renderRest]
    simp only [Utf8.encodeChars_append, List.append_assoc, Place.past_append]
    exact readItems_step hnext hvalue hrest

/-- The members of an object are read back. -/
theorem readMembers_render (ms : List (String × Json)) (first : Bool) {fuel depth : Nat}
    (hv : allMembers isExact ms = true) (hd : depthMembers ms ≤ depth)
    (hf : (renderRestMembers first ms).length ≤ fuel) (r : List UInt8) (p : Place) :
    readMembers fuel depth first ⟨Utf8.encodeChars (renderRestMembers first ms) ++ r, p⟩ =
      .ok (ms, ⟨r, p.past (Utf8.encodeChars (renderRestMembers first ms))⟩) := by
  have hpos := length_renderRestMembers_pos first ms
  obtain ⟨fuel, rfl⟩ : ∃ n, fuel = n + 1 := ⟨fuel - 1, by omega⟩
  match ms, hv, hd, hf with
  | [], _, _, _ =>
    show readMembers (fuel + 1) depth first ⟨0x7D :: r, p⟩ = _
    rw [readMembers, nextMember_end]
    rfl
  | (k, v) :: ms, hv, hd, hf =>
    rw [allMembers, Bool.and_eq_true] at hv
    rw [depthMembers] at hd
    rw [renderRestMembers, List.length_append, List.length_append, List.length_cons,
      List.length_append] at hf
    have hlen := length_renderRestMembers_pos false ms
    have hnext := nextMember_render first (writtenTail k ++ (0x3A :: (Utf8.encodeChars v.render ++
      (Utf8.encodeChars (renderRestMembers false ms) ++ r)))) p
    -- The place depends on what was read before, hence the two facts for any place.
    have hvalue := fun q => readValue_render v hv.1 (show _ ≤ depth by omega)
      (show _ ≤ fuel by omega) (isAfterValue_restMembers ms r) q
    have hrest := fun q => readMembers_render ms false hv.2 (show _ ≤ depth by omega)
      (show _ ≤ fuel by omega) r q
    rw [renderRestMembers]
    simp only [Utf8.encodeChars_append, Utf8.encodeChars_cons, encodeChars_renderString,
      List.append_assoc, Place.past_append]
    exact readMembers_step hnext (readString_written k _ _) readColon_colon (hvalue _) (hrest _)

end

/-- No character takes less than a byte. -/
theorem length_le_encodeChars (cs : List Char) : cs.length ≤ (Utf8.encodeChars cs).length := by
  induction cs with
  | nil => exact Nat.le_refl 0
  | cons c cs ih =>
    rw [Utf8.encodeChars_cons, List.length_append, List.length_cons,
      String.length_utf8EncodeChar]
    have := c.utf8Size_pos
    omega

/-- **The value of a compact form.** A value whose numbers are integers, whose objects are in order
and that is not nested too deep is what its compact form says. -/
theorem parse_bytes {v : Json} (hv : v.all isExact = true) (hd : v.depth ≤ maxDepth) :
    parse v.bytes = .ok v := by
  have hf : v.render.length ≤ (Cursor.ofBytes v.bytes).fuel := by
    have := length_le_encodeChars v.render
    show _ ≤ 2 * (Utf8.encodeChars v.render).length + 2
    omega
  have h := readValue_render v hv hd hf (r := []) (by rintro _ ⟨⟩) Place.start
  rw [List.append_nil] at h
  have h : readValue (Cursor.ofBytes v.bytes).fuel maxDepth (Cursor.ofBytes v.bytes) =
      .ok (v, ⟨[], Place.start.past v.bytes⟩) := h
  simp only [parse, h]
  rfl

end Parley.Json

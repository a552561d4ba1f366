import Parley.Proofs.Printed

/-!
# Values that are nested too deep

A reader may open a limited number of brackets. Of a value that is nested deeper it reads everything
before the first bracket too many, however much that is, and refuses the text there.

- `readValue_deep`, `readItems_deep`, `readMembers_deep`: one lemma for each reader, beside those
  that say what is read back.
- `parse_deep`: the compact form of a value that is nested too deep.
-/

namespace Parley.Json

section

variable {fuel depth : Nat} {first : Bool} {b : UInt8} {bs : List UInt8} {p : Place}

theorem readValue_list_full :
    readValue (fuel + 1) 0 ⟨0x5B :: bs, p⟩ = .error ⟨.tooDeep, some (p.after 0x5B)⟩ := rfl

theorem readValue_object_full :
    readValue (fuel + 1) 0 ⟨0x7B :: bs, p⟩ = .error ⟨.tooDeep, some (p.after 0x7B)⟩ := rfl

/-- An item that is refused. -/
theorem readItems_refused {c c₁ : Cursor} {e : Error} (hn : nextItem first c = .ok (true, c₁))
    (hv : readValue fuel depth c₁ = .error e) :
    readItems (fuel + 1) depth first c = .error e := by
  simp only [readItems, hn, hv]

/-- An item, and something behind it that is refused. -/
theorem readItems_refused_later {c c₁ c₂ : Cursor} {v : Json} {e : Error}
    (hn : nextItem first c = .ok (true, c₁)) (hv : readValue fuel depth c₁ = .ok (v, c₂))
    (hr : readItems fuel depth false c₂ = .error e) :
    readItems (fuel + 1) depth first c = .error e := by
  simp only [readItems, hn, hv, hr, Except.map]

/-- A member whose value is refused. -/
theorem readMembers_refused {c c₁ c₂ c₃ : Cursor} {k : String} {e : Error}
    (hn : nextMember first c = .ok (true, c₁)) (hk : readKey c₁ = .ok (k, c₂))
    (hc : readColon c₂ = .ok c₃) (hv : readValue fuel depth c₃ = .error e) :
    readMembers (fuel + 1) depth first c = .error e := by
  simp only [readMembers, hn, hk, hc, hv]

/-- A member, and something behind it that is refused. -/
theorem readMembers_refused_later {c c₁ c₂ c₃ c₄ : Cursor} {k : String} {v : Json} {e : Error}
    (hn : nextMember first c = .ok (true, c₁)) (hk : readKey c₁ = .ok (k, c₂))
    (hc : readColon c₂ = .ok c₃) (hv : readValue fuel depth c₃ = .ok (v, c₄))
    (hr : readMembers fuel depth false c₄ = .error e) :
    readMembers (fuel + 1) depth first c = .error e := by
  simp only [readMembers, hn, hk, hc, hv, hr, Except.map]

end

mutual

/-- A value is refused whose brackets are nested deeper than the reader may open them. -/
theorem readValue_deep (v : Json) {fuel depth : Nat} (hv : v.all isExact = true)
    (hd : depth < v.depth) (hf : v.render.length ≤ fuel) (r : List UInt8) (p : Place) :
    ∃ e, readValue fuel depth ⟨Utf8.encodeChars v.render ++ r, p⟩ = .error e ∧
      e.cause = .tooDeep := by
  match v, hv, hd, hf with
  | .null, _, hd, _ | .bool _, _, hd, _ | .num _, _, hd, _ | .str _, _, hd, _ =>
    exact absurd hd (Nat.not_lt_zero _)
  | .arr vs, hv, hd, hf =>
    rw [all, Bool.and_eq_true] at hv
    rw [Json.depth] at hd
    rw [render, List.length_cons, renderItems_eq] at hf
    obtain ⟨fuel, rfl⟩ : ∃ n, fuel = n + 1 := ⟨fuel - 1, by omega⟩
    rw [render, renderItems_eq]
    show ∃ e, readValue _ _ ⟨0x5B :: (Utf8.encodeChars (renderRest true vs) ++ r), p⟩ = _ ∧ _
    cases depth with
    | zero =>
      -- This is the bracket too many.
      exact ⟨_, readValue_list_full, rfl⟩
    | succ depth =>
      obtain ⟨e, he, hc⟩ := readItems_deep vs true hv.2 (show depth < _ by omega)
        (show _ ≤ fuel by omega) r (p.after 0x5B)
      refine ⟨e, ?_, hc⟩
      rw [readValue_list, he]
      rfl
  | .obj ms, hv, hd, hf =>
    rw [all, Bool.and_eq_true] at hv
    rw [Json.depth] at hd
    rw [render, List.length_cons, renderMembers_eq] at hf
    obtain ⟨fuel, rfl⟩ : ∃ n, fuel = n + 1 := ⟨fuel - 1, by omega⟩
    rw [render, renderMembers_eq]
    show ∃ e, readValue _ _ ⟨0x7B :: (Utf8.encodeChars (renderRestMembers true ms) ++ r), p⟩ = _ ∧ _
    cases depth with
    | zero => exact ⟨_, readValue_object_full, rfl⟩
    | succ depth =>
      obtain ⟨e, he, hc⟩ := readMembers_deep ms true hv.2 (show depth < _ by omega)
        (show _ ≤ fuel by omega) r (p.after 0x7B)
      refine ⟨e, ?_, hc⟩
      rw [readValue_object, he]
      rfl

/-- So are the items of an array, after those that are nested less deep were read. -/
theorem readItems_deep (vs : List Json) (first : Bool) {fuel depth : Nat}
    (hv : allItems isExact vs = true) (hd : depth < depthItems vs)
    (hf : (renderRest first vs).length ≤ fuel) (r : List UInt8) (p : Place) :
    ∃ e, readItems fuel depth first ⟨Utf8.encodeChars (renderRest first vs) ++ r, p⟩ = .error e ∧
      e.cause = .tooDeep := by
  have hpos := length_renderRest_pos first vs
  obtain ⟨fuel, rfl⟩ : ∃ n, fuel = n + 1 := ⟨fuel - 1, by omega⟩
  match vs, hv, hd, hf with
  | [], _, hd, _ => exact absurd hd (Nat.not_lt_zero _)
  | v :: vs, hv, hd, hf =>
    rw [allItems, Bool.and_eq_true] at hv
    rw [depthItems] at hd
    rw [renderRest, List.length_append, List.length_append] at hf
    have hi : v.isInteger = true := (Bool.and_eq_true _ _ ▸ all_self hv.1).1
    have hlen := length_renderRest_pos false vs
    have hnext := nextItem_render hi first (Utf8.encodeChars (renderRest false vs) ++ r) p
    rw [renderRest]
    simp only [Utf8.encodeChars_append, List.append_assoc]
    -- Either the first item is nested too deep itself, or it is read and a later one is.
    by_cases hdeep : depth < v.depth
    · obtain ⟨e, he, hc⟩ := readValue_deep v hv.1 hdeep (show _ ≤ fuel by omega)
        (Utf8.encodeChars (renderRest false vs) ++ r)
        (p.past (Utf8.encodeChars (separator first)))
      exact ⟨e, readItems_refused hnext he, hc⟩
    · have hlen' := length_render_pos hi
      have hvalue := readValue_render v hv.1 (show _ ≤ depth by omega) (show _ ≤ fuel by omega)
        (isAfterValue_rest vs r) (p.past (Utf8.encodeChars (separator first)))
      obtain ⟨e, he, hc⟩ := readItems_deep vs false hv.2 (show depth < _ by omega)
        (show _ ≤ fuel by omega) r
        ((p.past (Utf8.encodeChars (separator first))).past (Utf8.encodeChars v.render))
      exact ⟨e, readItems_refused_later hnext hvalue he, hc⟩

/-- So are the members of an object. -/
theorem readMembers_deep (ms : List (String × Json)) (first : Bool) {fuel depth : Nat}
    (hv : allMembers isExact ms = true) (hd : depth < depthMembers ms)
    (hf : (renderRestMembers first ms).length ≤ fuel) (r : List UInt8) (p : Place) :
    ∃ e, readMembers fuel depth first
        ⟨Utf8.encodeChars (renderRestMembers first ms) ++ r, p⟩ = .error e ∧
      e.cause = .tooDeep := by
  have hpos := length_renderRestMembers_pos first ms
  obtain ⟨fuel, rfl⟩ : ∃ n, fuel = n + 1 := ⟨fuel - 1, by omega⟩
  match ms, hv, hd, hf with
  | [], _, hd, _ => exact absurd hd (Nat.not_lt_zero _)
  | (k, v) :: ms, hv, hd, hf =>
    rw [allMembers, Bool.and_eq_true] at hv
    rw [depthMembers] at hd
    rw [renderRestMembers, List.length_append, List.length_append, List.length_cons,
      List.length_append] at hf
    have hlen := length_renderRestMembers_pos false ms
    have hnext := nextMember_render first (writtenTail k ++ (0x3A :: (Utf8.encodeChars v.render ++
      (Utf8.encodeChars (renderRestMembers false ms) ++ r)))) p
    rw [renderRestMembers]
    simp only [Utf8.encodeChars_append, Utf8.encodeChars_cons, encodeChars_renderString,
      List.append_assoc]
    -- What stands before the value is read at some place, which does not matter.
    by_cases hdeep : depth < v.depth
    · have hvalue := fun q => readValue_deep v hv.1 hdeep (show _ ≤ fuel by omega)
        (Utf8.encodeChars (renderRestMembers false ms) ++ r) q
      obtain ⟨e, he, hc⟩ := hvalue _
      exact ⟨e, readMembers_refused hnext (readString_written k _ _) readColon_colon he, hc⟩
    · have hvalue := fun q => readValue_render v hv.1 (show _ ≤ depth by omega)
        (show _ ≤ fuel by omega) (isAfterValue_restMembers ms r) q
      have hrest := fun q => readMembers_deep ms false hv.2 (show depth < _ by omega)
        (show _ ≤ fuel by omega) r q
      obtain ⟨e, he, hc⟩ := hrest _
      exact ⟨e, readMembers_refused_later hnext (readString_written k _ _) readColon_colon
        (hvalue _) he, hc⟩

end

/-- **The compact form of a value that is nested too deep** is refused for that. -/
theorem parse_deep {v : Json} (hv : v.all isExact = true) (hd : maxDepth < v.depth) :
    ∃ e, parse v.bytes = .error e ∧ e.cause = .tooDeep := by
  have hf : v.render.length ≤ (Cursor.ofBytes v.bytes).fuel := by
    have := length_le_encodeChars v.render
    show _ ≤ 2 * (Utf8.encodeChars v.render).length + 2
    omega
  obtain ⟨e, he, hc⟩ := readValue_deep v hv hd hf [] Place.start
  rw [List.append_nil] at he
  have he : readValue (Cursor.ofBytes v.bytes).fuel maxDepth (Cursor.ofBytes v.bytes) =
      .error e := he
  refine ⟨e, ?_, hc⟩
  simp only [parse, he]

end Parley.Json

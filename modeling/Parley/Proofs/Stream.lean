import Parley.Proofs.Depth
import Parley.Proofs.Envelope
import Parley.Proofs.Framing
import Parley.Proofs.Wire

/-!
# Streams of messages

What is written to a stream is read back from it: the same messages in the same order, each from its
own frame, whatever their texts look like. Where the stream breaks off, no message is made up and
none is altered.

- `Message.ofBytes_shallow`, `Message.ofBytes_deep`: what a body says that was written.
- `Message.IsPortable`: the messages that are read back as they are.
- `readMessages_frame`, `readMessages_cut`: the next frame, whole or not.
- `readMessages_take`: the first bytes of a stream, however many.
-/

namespace Parley

/-- What a message has to be in order to come through a stream whose reader has this limit: there is
only one message with its wire object, its values are exact, and its body is neither nested too deep
nor too long. -/
structure Message.IsPortable (limit : Nat) (m : Message) : Prop where
  definite : m.IsDefinite
  exact : ∀ v ∈ m.payloads, v.all Json.isExact = true
  depth : m.toJson.depth ≤ Json.maxDepth
  size : m.toBytes.length ≤ limit

namespace Message

/-- A body says what its message is, in its plain form. -/
theorem ofBytes_shallow {m : Message} (hx : ∀ v ∈ m.payloads, v.all Json.isExact = true)
    (hd : m.toJson.depth ≤ Json.maxDepth) : Message.ofBytes m.toBytes = .ok m.plain := by
  have hp : Json.parse m.toBytes = .ok m.toJson := Json.parse_bytes (all_toJson hx) hd
  rw [ofBytes, hp]
  simp only [ofJson_toJson]

/-- A body that is nested too deep is refused. -/
theorem ofBytes_deep {m : Message} (hx : ∀ v ∈ m.payloads, v.all Json.isExact = true)
    (hd : Json.maxDepth < m.toJson.depth) :
    ∃ e, Message.ofBytes m.toBytes = .error (.badJson e) ∧ e.cause = .tooDeep := by
  obtain ⟨e, he, hc⟩ := Json.parse_deep (all_toJson hx) hd
  refine ⟨e, ?_, hc⟩
  rw [ofBytes, toBytes, he]

/-- A message is read back from its body. -/
theorem ofBytes_toBytes {limit : Nat} {m : Message} (h : m.IsPortable limit) :
    Message.ofBytes m.toBytes = .ok m := by
  rw [ofBytes_shallow h.exact h.depth, plain_of_isDefinite h.definite]

/-- A body is not empty. -/
theorem toBytes_ne_nil (m : Message) : m.toBytes ≠ [] := by
  obtain ⟨b, bs, hb, -⟩ := Json.encodeChars_render m.toJson rfl
  rw [toBytes, Json.bytes, hb]
  rintro ⟨⟩

theorem length_frame_pos (m : Message) : 0 < m.frame.length := by
  have := List.length_pos_iff.mpr m.toBytes_ne_nil
  rw [Message.frame, Frame.frame, List.length_append]
  omega

end Message

namespace Frame

section

variable {limit : Nat} {bs body rest : List UInt8}

theorem readFrames_frame (h : nextFrame limit bs = .ok (some (body, rest))) :
    readFrames limit bs =
      ((body, rest.length) :: (readFrames limit rest).1, (readFrames limit rest).2) := by
  rw [readFrames]
  split
  · rename_i h'
    rw [h] at h'
    cases h'
  · rename_i h'
    rw [h] at h'
    cases h'
  · rename_i h'
    rw [h, Except.ok.injEq, Option.some.injEq, Prod.mk.injEq] at h'
    obtain ⟨rfl, rfl⟩ := h'
    rfl

theorem readFrames_error {e : ReadError} (h : nextFrame limit bs = .error e) :
    readFrames limit bs = ([], some e) := by
  rw [readFrames]
  split
  · rename_i h'
    rw [h, Except.error.injEq] at h'
    rw [h']
  · rename_i h'
    rw [h] at h'
    cases h'
  · rename_i h'
    rw [h] at h'
    cases h'

theorem readFrames_nil : readFrames limit [] = ([], none) := by
  have h : nextFrame limit [] = .ok none := by
    rw [nextFrame, readHeader]
    rfl
  rw [readFrames]
  split
  · rename_i h'
    rw [h] at h'
    cases h'
  · rfl
  · rename_i h'
    rw [h] at h'
    cases h'

/-! ### Reading with room made for each body -/

/-- What a task has read that comes to the end of its reading: the next frame of the string was no
frame, or its body was refused, or the task went on behind it. -/
theorem readAll_cases {α : Type} {decode : List UInt8 → Except ReadError α}
    {r : List (α × Nat) × Option ReadError} (h : readAll decode limit bs = .ok r) :
    (∃ e, nextFrame limit bs = .error e ∧ r = ([], some e)) ∨
      (nextFrame limit bs = .ok none ∧ r = ([], none)) ∨
      ∃ body rest, nextFrame limit bs = .ok (some (body, rest)) ∧
        ((∃ e, decode body = .error e ∧ r = ([], some e)) ∨
          ∃ v r', decode body = .ok v ∧ readAll decode limit rest = .ok r' ∧
            r = ((v, rest.length) :: r'.1, r'.2)) := by
  rw [readAll] at h
  split at h
  · cases h
  · next e he =>
    exact .inl ⟨e, nextFrame_of_readFrame he, (Except.ok.inj h).symm⟩
  · next hn =>
    exact .inr (.inl ⟨nextFrame_of_readFrame hn, (Except.ok.inj h).symm⟩)
  · next body rest hf =>
    refine .inr (.inr ⟨body, rest, nextFrame_of_readFrame hf, ?_⟩)
    split at h
    · next e he => exact .inl ⟨e, he, (Except.ok.inj h).symm⟩
    · next v hv =>
      cases hr : readAll decode limit rest with
      | error p =>
        rw [hr] at h
        cases h
      | ok r' =>
        rw [hr] at h
        exact .inr ⟨v, r', hv, rfl, (Except.ok.inj h).symm⟩

/-- **A task that comes to the end of its reading** has read the frames of the string, and decoded
their bodies up to the first that cannot be decoded. -/
theorem decodeAll_of_readAll {α : Type} {decode : List UInt8 → Except ReadError α}
    {r : List (α × Nat) × Option ReadError} (h : readAll decode limit bs = .ok r) :
    decodeAll decode (readFrames limit bs).2 (readFrames limit bs).1 = r := by
  fun_induction readFrames limit bs generalizing r with
  | case1 bs e he =>
    rcases readAll_cases h with ⟨e', he', rfl⟩ | ⟨hn, -⟩ | ⟨body, rest, hf, -⟩
    · obtain rfl := Except.error.inj (he.symm.trans he')
      rfl
    · cases he.symm.trans hn
    · cases he.symm.trans hf
  | case2 bs hn =>
    rcases readAll_cases h with ⟨e', he', -⟩ | ⟨-, rfl⟩ | ⟨body, rest, hf, -⟩
    · cases hn.symm.trans he'
    · rfl
    · cases hn.symm.trans hf
  | case3 bs body rest hf items stop heq ih =>
    rcases readAll_cases h with ⟨e', he', -⟩ | ⟨hn, -⟩ | ⟨body', rest', hf', hr⟩
    · cases hf.symm.trans he'
    · cases hf.symm.trans hn
    · obtain ⟨rfl, rfl⟩ := Prod.mk.inj (Option.some.inj (Except.ok.inj (hf.symm.trans hf')))
      rcases hr with ⟨e, he, rfl⟩ | ⟨v, r', hv, hr', rfl⟩
      · simp only [decodeAll, he]
      · rw [heq] at ih
        simp only [decodeAll, hv, ih hr']

/-- With a limit that a buffer can have, every task comes to the end of its reading. -/
theorem readAll_of_le {α : Type} (decode : List UInt8 → Except ReadError α)
    (h : limit ≤ maxBuffer) (bs : List UInt8) :
    readAll decode limit bs =
      .ok (decodeAll decode (readFrames limit bs).2 (readFrames limit bs).1) := by
  suffices hr : ∃ r, readAll decode limit bs = .ok r by
    obtain ⟨r, hr⟩ := hr
    rw [hr, decodeAll_of_readAll hr]
  fun_induction readAll decode limit bs with
  | case1 bs p hp => cases (readFrame_of_le h bs).symm.trans hp
  | case2 | case3 | case4 => exact ⟨_, rfl⟩
  | case5 bs body rest hf v hv ih =>
    obtain ⟨r, hr⟩ := ih
    exact ⟨_, by rw [hr]; rfl⟩

end

section

variable {limit : Nat} {m : Message}

theorem readMessages_nil : readMessages limit [] = ([], none) := by
  rw [readMessages, readFrames_nil]
  rfl

/-- What the body of a frame says is handed on, and reading goes on behind the frame. -/
theorem readMessages_body {m' : Message} (hn : m.toBytes.length < 0x10000000000000000)
    (hlimit : m.toBytes.length ≤ limit) (h : Message.ofBytes m.toBytes = .ok m')
    (rest : List UInt8) :
    readMessages limit (m.frame ++ rest) =
      ((m', rest.length) :: (readMessages limit rest).1, (readMessages limit rest).2) := by
  have hframe : nextFrame limit (frame m.toBytes ++ rest) = _ := nextFrame_frame hn hlimit
  rw [readMessages, Message.frame, readFrames_frame hframe]
  simp only [decodeAll, h]
  rfl

/-- A message is read back from its frame, and reading goes on behind it. -/
theorem readMessages_frame (hlimit : limit < 0x10000000000000000) (h : m.IsPortable limit)
    (rest : List UInt8) :
    readMessages limit (m.frame ++ rest) =
      ((m, rest.length) :: (readMessages limit rest).1, (readMessages limit rest).2) :=
  readMessages_body (Nat.lt_of_le_of_lt h.size hlimit) h.size (Message.ofBytes_toBytes h) rest

/-- A frame that is not whole gives no message, and an error unless nothing of it is there. -/
theorem readMessages_cut (hlimit : limit < 0x10000000000000000) (h : m.IsPortable limit) {k : Nat}
    (hk : k < m.frame.length) :
    (readMessages limit (m.frame.take k)).1 = [] ∧
      ((readMessages limit (m.frame.take k)).2 = none ↔ k = 0) := by
  rcases Nat.eq_zero_or_pos k with rfl | hpos
  · rw [List.take_zero, readMessages_nil]
    exact ⟨rfl, iff_of_true rfl rfl⟩
  · obtain ⟨e, he⟩ :=
      nextFrame_cut (Nat.lt_of_le_of_lt h.size hlimit) h.size m.toBytes_ne_nil hpos hk
    rw [readMessages, Message.frame, readFrames_error he]
    exact ⟨rfl, iff_of_false (by rintro ⟨⟩) (Nat.ne_of_gt hpos)⟩

end

/-- **What a stream gives that breaks off.** Of the frames of some messages only the first `k` bytes
arrive. Those messages are read whose frames are whole, the rest of the bytes being left after each
of them; then the stream ends in order if the cut is between two frames, and with an error if it is
inside one. -/
theorem readMessages_take {limit : Nat} (hlimit : limit < 0x10000000000000000) {ms : List Message}
    (h : ∀ m ∈ ms, m.IsPortable limit) (k : Nat) :
    let cut := (wire ms).take k
    ∃ n ≤ ms.length,
      (∀ j ≤ ms.length, (wire (ms.take j)).length ≤ cut.length ↔ j ≤ n) ∧
      (readMessages limit cut).1 = (ms.take n).mapIdx (fun i m =>
        (m, cut.length - (wire (ms.take (i + 1))).length)) ∧
      ((readMessages limit cut).2 = none ↔ ∃ j, cut = wire (ms.take j)) := by
  intro cut
  induction ms generalizing k with
  | nil =>
    have hcut : cut = [] := List.take_nil
    rw [hcut, readMessages_nil]
    refine ⟨0, Nat.le_refl 0, fun j hj => ?_, rfl, iff_of_true rfl ⟨0, rfl⟩⟩
    rw [Nat.le_zero.mp hj]
    exact iff_of_true (Nat.le_refl 0) (Nat.le_refl 0)
  | cons m ms ih =>
    obtain ⟨hm, hms⟩ := List.forall_mem_cons.mp h
    have hpos := m.length_frame_pos
    rcases Nat.lt_or_ge k m.frame.length with hk | hk
    · -- The cut is inside the first frame, or before it.
      have hcut : cut = m.frame.take k := List.take_append_of_le_length (Nat.le_of_lt hk)
      have hlen : cut.length = k := by
        rw [hcut, List.length_take]
        omega
      obtain ⟨hread, hstop⟩ := readMessages_cut hlimit hm hk
      have hafter : ∀ j, k < (wire ((m :: ms).take (j + 1))).length := fun j => by
        rw [List.take_succ_cons, wire_cons, List.length_append]
        omega
      refine ⟨0, Nat.zero_le _, fun j hj => ?_, ?_, ?_⟩
      · cases j with
        | zero => exact iff_of_true (Nat.zero_le _) (Nat.le_refl 0)
        | succ j =>
          have := hafter j
          omega
      · rw [hcut, hread]
        rfl
      · rw [hcut, hstop, ← hcut]
        constructor
        · rintro rfl
          exact ⟨0, hcut⟩
        · rintro ⟨j, hj⟩
          have hj := congrArg List.length hj
          cases j with
          | zero => exact hlen.symm.trans hj
          | succ j =>
            have := hafter j
            omega
    · -- The first frame is whole.
      obtain ⟨k, rfl⟩ : ∃ i, k = m.frame.length + i := ⟨k - m.frame.length, by omega⟩
      have hcut : cut = m.frame ++ (wire ms).take k := List.take_length_add_append k
      have hlen : cut.length = m.frame.length + ((wire ms).take k).length := by
        rw [hcut, List.length_append]
      obtain ⟨n, hn, hcount, hread, hstop⟩ := ih hms k
      refine ⟨n + 1, Nat.succ_le_succ hn, fun j hj => ?_, ?_, ?_⟩
      · cases j with
        | zero => exact iff_of_true (Nat.zero_le _) (Nat.zero_le _)
        | succ j =>
          rw [List.take_succ_cons, wire_cons, List.length_append, hlen, Nat.add_le_add_iff_left,
            hcount j (Nat.le_of_succ_le_succ hj), Nat.add_le_add_iff_right]
      · -- What is left behind a message does not depend on the frames before it.
        have hleft : ∀ j, cut.length - (wire ((m :: ms).take (j + 1))).length =
            ((wire ms).take k).length - (wire (ms.take j)).length := fun j => by
          rw [hlen, List.take_succ_cons, wire_cons, List.length_append, Nat.add_sub_add_left]
        simp only [hleft]
        rw [hcut, readMessages_frame hlimit hm, List.take_succ_cons, List.mapIdx_cons, hread]
        rfl
      · rw [hcut, readMessages_frame hlimit hm]
        refine hstop.trans ⟨?_, ?_⟩
        · rintro ⟨j, hj⟩
          exact ⟨j + 1, congrArg (m.frame ++ ·) hj⟩
        · rintro ⟨j, hj⟩
          cases j with
          | zero =>
            have hnil := (List.append_eq_nil_iff.mp hj).1
            rw [hnil] at hpos
            exact absurd hpos (Nat.lt_irrefl 0)
          | succ j => exact ⟨j, List.append_cancel_left hj⟩

/-- A request whose params look like a header, and a reply of which the last bytes are missing. -/
theorem readMessages_take_pair :
    let ms : List Message :=
      [.request (.number 1) "a" (.ofMembers [("Content-Length: 0\r\n\r\n", .str "ü")]),
        .reply (.err (.text "1") ⟨.invalidParams, "no", some (.arr [])⟩)]
    let cut := (wire ms).take 190
    ∃ n ≤ ms.length,
      (∀ j ≤ ms.length, (wire (ms.take j)).length ≤ cut.length ↔ j ≤ n) ∧
      (readMessages 200 cut).1 = (ms.take n).mapIdx (fun i m =>
        (m, cut.length - (wire (ms.take (i + 1))).length)) ∧
      ((readMessages 200 cut).2 = none ↔ ∃ j, cut = wire (ms.take j)) := by
  intro ms
  refine readMessages_take (by decide) ?_ 190
  refine List.forall_mem_cons.mpr ⟨⟨⟨?_, ?_⟩, ?_, ?_, ?_⟩, List.forall_mem_singleton.mpr
    ⟨⟨?_, ?_⟩, ?_, ?_, ?_⟩⟩
  · rintro _ ⟨⟩
  · rintro _ ⟨⟩
  · decide +kernel
  · decide +kernel
  · decide +kernel
  · rintro r ⟨⟩
    rintro ⟨⟩
  · rintro f ⟨⟩
    rintro ⟨⟩
  · decide +kernel
  · decide +kernel
  · decide +kernel

end Frame

end Parley

import Parley.Frame.Feed
import Parley.Frame.Read

/-!
# A stream in pieces

A reader that takes the bytes as they come finds the frames that are in the whole string, wherever
the string is cut: it remembers enough of the frame under way. What it cannot know is whether more
bytes follow, so the end of the stream is said to it separately.

- `Intake.feed_append`: two pieces are as good as one.
- `Intake.drain`: everything that a last piece completes, and why the reading ends.
- `drain_start`: from the beginning, that is what is read from the whole string.
-/

namespace Parley.Frame

namespace Intake

variable {limit : Nat}

/-! ## Pieces -/

/-- Two pieces are as good as one: the second one goes on with what is known after the first one,
unless there was an error. -/
theorem feed_append (s : Intake) (a b : List UInt8) :
    s.feed limit (a ++ b) =
      match s.feed limit a with
      | (bodies, .ok t) => (bodies ++ (t.feed limit b).1, (t.feed limit b).2)
      | (bodies, .error e) => (bodies, .error e) := by
  induction a generalizing s with
  | nil => rfl
  | cons x a ih =>
    rw [List.cons_append, feed, feed]
    cases s.push limit x with
    | more t => exact ih t
    | failed e => rfl
    | frame payload =>
      simp only [ih start]
      rcases start.feed limit a with ⟨bodies, e | t⟩
      · rfl
      · rfl

theorem feed_append_of_ok {s t : Intake} {a : List UInt8} {bodies : List (List UInt8)}
    (h : s.feed limit a = (bodies, .ok t)) (b : List UInt8) :
    s.feed limit (a ++ b) = (bodies ++ (t.feed limit b).1, (t.feed limit b).2) := by
  rw [feed_append, h]

/-- After an error no byte is looked at. -/
theorem feed_append_of_error {s : Intake} {a : List UInt8} {bodies : List (List UInt8)}
    {e : ReadError} (h : s.feed limit a = (bodies, .error e)) (b : List UInt8) :
    s.feed limit (a ++ b) = (bodies, .error e) := by
  rw [feed_append, h]

/-! ## The last piece -/

/-- The bodies of the frames that the bytes up to the end of a stream complete, and the error that
ends the reading; none if the stream ends between two frames. -/
def drain (limit : Nat) (s : Intake) (bs : List UInt8) : List (List UInt8) × Option ReadError :=
  match s.feed limit bs with
  | (bodies, .error e) => (bodies, some e)
  | (bodies, .ok t) =>
    match t.finish limit with
    | .error e => (bodies, some e)
    | .ok none => (bodies, none)
    | .ok (some payload) => (bodies ++ [payload], none)

/-- Puts a body before those of the frames that follow. -/
def onward (payload : List UInt8) (r : List (List UInt8) × Option ReadError) :
    List (List UInt8) × Option ReadError :=
  (payload :: r.1, r.2)

theorem drain_cons (s : Intake) (b : UInt8) (bs : List UInt8) :
    s.drain limit (b :: bs) =
      match s.push limit b with
      | .more t => t.drain limit bs
      | .frame payload => onward payload (start.drain limit bs)
      | .failed e => ([], some e) := by
  rw [drain, feed]
  cases s.push limit b with
  | more t => rfl
  | failed e => rfl
  | frame payload =>
    simp only [drain]
    rcases start.feed limit bs with ⟨bodies, e | t⟩
    · rfl
    · simp only
      rcases t.finish limit with e | o | last
      · rfl
      · rfl
      · rfl

/-- What is read once a header line is whole. -/
def afterLine (limit : Nat) (line : List UInt8) (length : Option Nat) (rest : List UInt8) :
    List (List UInt8) × Option ReadError :=
  match endLine limit line length with
  | .more t => t.drain limit rest
  | .frame payload => onward payload (start.drain limit rest)
  | .failed e => ([], some e)

/-- What a header line can lead to. -/
theorem endLine_cases (limit : Nat) (line : List UInt8) (length : Option Nat) :
    (∃ e, endLine limit line length = .failed e) ∨ endLine limit line length = .frame [] ∨
      (∃ n, endLine limit line length = .more (.body [] n)) ∨
      ∃ n, endLine limit line length = .more (.header [] maxHeaderLine true n) := by
  rw [endLine]
  cases HeaderLine.ofBytes line with
  | error e => exact .inl ⟨e, rfl⟩
  | ok l =>
    cases l with
    | length n => exact .inr (.inr (.inr ⟨_, rfl⟩))
    | other => exact .inr (.inr (.inr ⟨_, rfl⟩))
    | last =>
      cases bodyLength limit length with
      | error e => exact .inl ⟨e, rfl⟩
      | ok n =>
        cases n with
        | zero => exact .inr (.inl rfl)
        | succ n => exact .inr (.inr (.inl ⟨n, rfl⟩))

/-- At the end of a stream a line counts that has no end. -/
theorem drain_line_nil {line : List UInt8} (h : line ≠ []) (room : Nat) (seen : Bool)
    (length : Option Nat) :
    (Intake.header line room seen length).drain limit [] =
      afterLine limit line.reverse length [] := by
  obtain ⟨b, line, rfl⟩ := List.exists_cons_of_ne_nil h
  rw [drain, feed, afterLine, List.reverse_cons]
  simp only [finish]
  rcases endLine_cases limit (line.reverse ++ [b]) length with ⟨e, he⟩ | he | ⟨n, he⟩ | ⟨n, he⟩
  · rw [he]
  · rw [he]
    rfl
  · rw [he]
    rfl
  · rw [he]
    rfl

/-- A line is read to its end, or as far as it may go, wherever in it the reading goes on. -/
theorem drain_line (line bs : List UInt8) {room : Nat} (hroom : 0 < room)
    (h : line ≠ [] ∨ bs ≠ []) (seen : Bool) (length : Option Nat) :
    (Intake.header line room seen length).drain limit bs =
      afterLine limit (line.reverse ++ (takeLine room bs).1) length (takeLine room bs).2 := by
  induction bs generalizing line room with
  | nil =>
    obtain ⟨cap, rfl⟩ : ∃ cap, room = cap + 1 := ⟨room - 1, by omega⟩
    rw [drain_line_nil (h.resolve_right fun h => h rfl), takeLine, List.append_nil]
  | cons b bs ih =>
    obtain ⟨cap, rfl⟩ : ∃ cap, room = cap + 1 := ⟨room - 1, by omega⟩
    rw [drain_cons, push, takeLine]
    by_cases hb : b = lineFeed
    · rw [if_pos (.inl hb), if_pos hb]
      rfl
    · rw [if_neg hb]
      by_cases hc : cap = 0
      · -- The line has all the bytes that it may have.
        subst hc
        rw [if_pos (.inr (Nat.le_refl 1)), takeLine]
        rfl
      · rw [if_neg fun h => h.elim hb (by omega)]
        have hrest := ih (b :: line) (Nat.pos_of_ne_zero hc) (.inl (by rintro ⟨⟩))
        simpa using hrest

/-- A body is read to its last byte. -/
theorem drain_body (held : List UInt8) (n : Nat) (bs : List UInt8) :
    (Intake.body held n).drain limit bs =
      if bs.length ≤ n then ([], some .endInFrame)
      else onward (held.reverse ++ bs.take (n + 1)) (start.drain limit (bs.drop (n + 1))) := by
  induction bs generalizing held n with
  | nil => rfl
  | cons b bs ih =>
    rw [drain_cons]
    cases n with
    | zero => rfl
    | succ n =>
      simp only [push, ih, List.length_cons, Nat.add_le_add_iff_right]
      simp

end Intake

open Intake

variable {limit : Nat}

/-! ## The whole string -/

/-- What is read behind a header block: a body with the length that the block announces, and what
follows it. -/
def afterHeader (limit n : Nat) (rest : List UInt8) : List (List UInt8) × Option ReadError :=
  if rest.length < n then ([], some .endInFrame)
  else onward (rest.take n) (start.drain limit (rest.drop n))

theorem drain_afterHeader (n : Nat) (rest : List UInt8) :
    (match n with
      | 0 => onward [] (start.drain limit rest)
      | n + 1 => (Intake.body [] n).drain limit rest) = afterHeader limit n rest := by
  cases n with
  | zero => rfl
  | succ n =>
    simp only [drain_body, afterHeader, Nat.lt_succ_iff]
    rfl

/-- A header block is read line by line. -/
theorem drain_header (seen : Bool) (length : Option Nat) (bs : List UInt8) :
    (Intake.header [] maxHeaderLine seen length).drain limit bs =
      match readHeader limit seen length bs with
      | .error e => ([], some e)
      | .ok none => ([], none)
      | .ok (some (n, rest)) => afterHeader limit n rest := by
  have hline : ∀ (seen : Bool) (length : Option Nat) (b : UInt8) (bs : List UInt8),
      (Intake.header [] maxHeaderLine seen length).drain limit (b :: bs) =
        afterLine limit (takeLine maxHeaderLine (b :: bs)).1 length
          (takeLine maxHeaderLine (b :: bs)).2 := fun seen length b bs =>
    drain_line [] (b :: bs) (by decide) (.inr (by rintro ⟨⟩)) seen length
  -- By the lines that are read of the whole string.
  fun_induction readHeader limit seen length bs with
  | case1 length => rfl
  | case2 seen length hs =>
    obtain rfl := Bool.eq_false_iff.mpr hs
    rfl
  | case3 seen length b bs line e he =>
    rw [hline, afterLine, endLine, he]
  | case4 seen length b bs line hl =>
    rw [hline, afterLine, endLine, hl]
    cases bodyLength limit length with
    | error e => rfl
    | ok n =>
      refine Eq.trans ?_ (drain_afterHeader n _)
      cases n <;> rfl
  | case5 seen length b bs line m hl ih =>
    rw [hline, afterLine, endLine, hl]
    exact ih
  | case6 seen length b bs line hl ih =>
    rw [hline, afterLine, endLine, hl]
    exact ih

/-- The next frame of a string is the first one that the reader finds. -/
theorem drain_frame (bs : List UInt8) :
    start.drain limit bs =
      match nextFrame limit bs with
      | .error e => ([], some e)
      | .ok none => ([], none)
      | .ok (some (payload, rest)) => onward payload (start.drain limit rest) := by
  have h : start.drain limit bs = _ := drain_header false none bs
  rw [h, nextFrame]
  rcases readHeader limit false none bs with e | _ | ⟨n, rest⟩
  · rfl
  · rfl
  · simp only [afterHeader]
    split
    · rfl
    · rfl

/-- **The frames of a stream are those of the whole string**, and the reading ends in the same
way. -/
theorem drain_start (bs : List UInt8) :
    start.drain limit bs = ((readFrames limit bs).1.map Prod.fst, (readFrames limit bs).2) := by
  fun_induction readFrames limit bs with
  | case1 bs e h =>
    rw [drain_frame, h]
    rfl
  | case2 bs h =>
    rw [drain_frame, h]
    rfl
  | case3 bs payload rest h items stop heq ih =>
    rw [drain_frame, h]
    simp only [ih, heq]
    rfl

end Parley.Frame

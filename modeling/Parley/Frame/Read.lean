import Parley.Frame.Header

/-!
# Reading frames from a byte string

Room for a body is made as soon as its length is known, before any byte of it is read. A length that
no buffer can have, which only a limit of that size lets through, ends the task that reads. For
every other length there is taken to be memory enough.

- `takeLine`: the bytes of the next line.
- `nextFrame`: the next frame of a string, if the string is not empty, whatever the length of its
  body.
- `readFrames`, `readMessages`: everything that a string holds, and why it ends, likewise.
- `readFrame`: the next frame, with room made for its body.
- `readAll`: everything that a string holds, read in this way.
- `readFrame_of_le`: the two ways agree as long as the limit is one that a buffer can have.
-/

namespace Parley.Frame

/-- The bytes up to the end of the line, at most `cap` of them, and the bytes that follow. -/
def takeLine : Nat → List UInt8 → List UInt8 × List UInt8
  | 0, bs => ([], bs)
  | _ + 1, [] => ([], [])
  | cap + 1, b :: bs =>
    if b = lineFeed then ([b], bs)
    else
      let (line, rest) := takeLine cap bs
      (b :: line, rest)

theorem takeLine_append (cap : Nat) (bs : List UInt8) :
    (takeLine cap bs).1 ++ (takeLine cap bs).2 = bs := by
  fun_induction takeLine cap bs with
  | case1 | case2 => rfl
  | case3 cap bs => simp
  | case4 cap b bs h line rest heq ih =>
    rw [heq] at ih
    simpa using ih

theorem takeLine_rest_lt (cap : Nat) (b : UInt8) (bs : List UInt8) :
    (takeLine (cap + 1) (b :: bs)).2.length < (b :: bs).length := by
  rw [takeLine]
  split
  · simp
  · have h := congrArg List.length (takeLine_append cap bs)
    rw [List.length_append] at h
    simp only [List.length_cons]
    omega

/-- Reads a header block: the announced length, and the bytes after the block. `seen` says whether
a line of the block came before, and `length` what it announced. A string that is empty where a
block could start gives none. -/
def readHeader (limit : Nat) (seen : Bool) (length : Option Nat) (bs : List UInt8) :
    Except ReadError (Option (Nat × List UInt8)) :=
  match bs with
  | [] => if seen then .error .endInFrame else .ok none
  | b :: bs =>
    let line := takeLine maxHeaderLine (b :: bs)
    match HeaderLine.ofBytes line.1 with
    | .error e => .error e
    | .ok .last => (bodyLength limit length).map fun n => some (n, line.2)
    | .ok (.length n) => readHeader limit true (some n) line.2
    | .ok .other => readHeader limit true length line.2
termination_by bs.length
decreasing_by all_goals exact takeLine_rest_lt _ b bs

/-- The next frame: its body and the bytes after it. An empty string gives none. That a buffer may
be too small for the body is left out here. -/
def nextFrame (limit : Nat) (bs : List UInt8) :
    Except ReadError (Option (List UInt8 × List UInt8)) :=
  match readHeader limit false none bs with
  | .error e => .error e
  | .ok none => .ok none
  | .ok (some (n, rest)) =>
    if rest.length < n then .error .endInFrame
    else .ok (some (rest.take n, rest.drop n))

theorem readHeader_rest_lt {limit : Nat} {seen : Bool} {length : Option Nat} {bs rest : List UInt8}
    {n : Nat} (h : readHeader limit seen length bs = .ok (some (n, rest))) :
    rest.length < bs.length := by
  fun_induction readHeader limit seen length bs with
  | case1 => simp_all
  | case2 => simp_all
  | case3 => simp_all
  | case4 seen length b bs line hl =>
    cases hb : bodyLength limit length with
    | error e => rw [hb] at h; simp [Except.map] at h
    | ok m =>
      rw [hb] at h
      simp only [Except.map, Except.ok.injEq, Option.some.injEq, Prod.mk.injEq] at h
      rw [← h.2]
      exact takeLine_rest_lt _ b bs
  | case5 seen length b bs line m hl ih =>
    exact Nat.lt_trans (ih h) (takeLine_rest_lt _ b bs)
  | case6 seen length b bs line hl ih =>
    exact Nat.lt_trans (ih h) (takeLine_rest_lt _ b bs)

theorem nextFrame_rest_lt {limit : Nat} {bs body rest : List UInt8}
    (h : nextFrame limit bs = .ok (some (body, rest))) : rest.length < bs.length := by
  rw [nextFrame] at h
  split at h
  · simp at h
  · simp at h
  · rename_i n r hr
    split at h
    · simp at h
    · simp only [Except.ok.injEq, Option.some.injEq, Prod.mk.injEq] at h
      rw [← h.2, List.length_drop]
      have := readHeader_rest_lt hr
      omega

/-- All frames: each body with the number of bytes after its frame, and the error that ends the
reading; none at the end of the string. -/
def readFrames (limit : Nat) (bs : List UInt8) : List (List UInt8 × Nat) × Option ReadError :=
  match _h : nextFrame limit bs with
  | .error e => ([], some e)
  | .ok none => ([], none)
  | .ok (some (body, rest)) =>
    let (items, stop) := readFrames limit rest
    ((body, rest.length) :: items, stop)
termination_by bs.length
decreasing_by exact nextFrame_rest_lt _h

/-- Decodes bodies, up to the first that cannot be decoded. -/
def decodeAll {α : Type} (decode : List UInt8 → Except ReadError α) (stop : Option ReadError) :
    List (List UInt8 × Nat) → List (α × Nat) × Option ReadError
  | [] => ([], stop)
  | (body, rest) :: items =>
    match decode body with
    | .error e => ([], some e)
    | .ok v =>
      let (vs, stop) := decodeAll decode stop items
      ((v, rest) :: vs, stop)

/-- All messages, each with the number of bytes after its frame, and the error that ends the
reading. -/
def readMessages (limit : Nat) (bs : List UInt8) : List (Message × Nat) × Option ReadError :=
  let (items, stop) := readFrames limit bs
  decodeAll Message.ofBytes stop items

/-! ## Room for bodies -/

/-- The bytes that a buffer may have. -/
def maxBuffer : Nat := 0x7FFFFFFFFFFFFFFF

/-- Why a task ends that reads, without a word to who waits for what it reads. -/
inductive Panic where
  /-- A buffer was asked for with more bytes than any has. -/
  | capacityOverflow (length : Nat)
  deriving DecidableEq, Repr

/-- Reads the next frame: its body and the bytes after it. An empty string gives none. -/
def readFrame (limit : Nat) (bs : List UInt8) :
    Except Panic (Except ReadError (Option (List UInt8 × List UInt8))) :=
  match readHeader limit false none bs with
  | .error e => .ok (.error e)
  | .ok none => .ok (.ok none)
  | .ok (some (n, rest)) =>
    if maxBuffer < n then .error (.capacityOverflow n)
    else if rest.length < n then .ok (.error .endInFrame)
    else .ok (.ok (some (rest.take n, rest.drop n)))

theorem bodyLength_le {limit n : Nat} {length : Option Nat} (h : bodyLength limit length = .ok n) :
    n ≤ limit := by
  cases length with
  | none => cases h
  | some m =>
    rw [bodyLength] at h
    split at h
    · cases h
    · obtain rfl := Except.ok.inj h
      omega

/-- No length is announced that the limit does not allow. -/
theorem readHeader_le {limit : Nat} {seen : Bool} {length : Option Nat} {bs rest : List UInt8}
    {n : Nat} (h : readHeader limit seen length bs = .ok (some (n, rest))) : n ≤ limit := by
  fun_induction readHeader limit seen length bs with
  | case1 => simp_all
  | case2 => simp_all
  | case3 => simp_all
  | case4 seen length b bs line hl =>
    cases hb : bodyLength limit length with
    | error e => rw [hb] at h; simp [Except.map] at h
    | ok m =>
      rw [hb] at h
      simp only [Except.map, Except.ok.injEq, Option.some.injEq, Prod.mk.injEq] at h
      rw [← h.1]
      exact bodyLength_le hb
  | case5 seen length b bs line m hl ih => exact ih h
  | case6 seen length b bs line hl ih => exact ih h

/-- Where the task goes on, it has read the next frame. -/
theorem nextFrame_of_readFrame {limit : Nat} {bs : List UInt8}
    {r : Except ReadError (Option (List UInt8 × List UInt8))} (h : readFrame limit bs = .ok r) :
    nextFrame limit bs = r := by
  rw [readFrame] at h
  rw [nextFrame]
  split at h
  · exact Except.ok.inj h
  · exact Except.ok.inj h
  · split at h
    · cases h
    · split at h
      · next hcut =>
        rw [if_pos hcut]
        exact Except.ok.inj h
      · next hcut =>
        rw [if_neg hcut]
        exact Except.ok.inj h

/-- With a limit that a buffer can have, the task always goes on. -/
theorem readFrame_of_le {limit : Nat} (h : limit ≤ maxBuffer) (bs : List UInt8) :
    readFrame limit bs = .ok (nextFrame limit bs) := by
  rw [readFrame, nextFrame]
  split
  · rfl
  · rfl
  · next n rest hn =>
    rw [if_neg (Nat.not_lt.mpr (Nat.le_trans (readHeader_le hn) h))]
    split <;> rfl

/-- Reads everything, and decodes each body: what the bodies say, each with the number of bytes
after its frame, and the error that ends the reading. -/
def readAll {α : Type} (decode : List UInt8 → Except ReadError α) (limit : Nat) (bs : List UInt8) :
    Except Panic (List (α × Nat) × Option ReadError) :=
  match _h : readFrame limit bs with
  | .error p => .error p
  | .ok (.error e) => .ok ([], some e)
  | .ok (.ok none) => .ok ([], none)
  | .ok (.ok (some (body, rest))) =>
    match decode body with
    | .error e => .ok ([], some e)
    | .ok v =>
      (readAll decode limit rest).map fun (items, stop) => ((v, rest.length) :: items, stop)
termination_by bs.length
decreasing_by exact nextFrame_rest_lt (nextFrame_of_readFrame _h)

end Parley.Frame

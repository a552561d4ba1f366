import Parley.Frame.Read
import Parley.Proofs.Numerals

/-!
# Frames and their bytes

A body is read back from its frame, and not a byte that follows is taken for it. A frame that lacks
a byte, wherever it is cut, is refused: inside the name of its header line, between the two bytes of
a line's end, or inside its body.

- `HeaderLine.ofBytes` on the line that gives the length: `ofBytes_lengthLine`.
- `nextFrame_frame`: a whole frame.
- `nextFrame_cut`: a part of a frame.
- `nextFrame_refused`: a frame that is too large for its reader, whatever its size.
-/

namespace Parley

namespace Text

variable {p : Char → Bool} {c : Char} {cs ds : List Char}

/-- What is dropped at the end is all that satisfies `p`, and nothing before it. -/
theorem dropTrailing_append (hcs : ∀ c ∈ cs.getLast?, p c = false) (hds : ∀ d ∈ ds, p d = true) :
    dropTrailing p (cs ++ ds) = cs := by
  have hd : ∀ d ∈ ds.reverse, p d = true := fun d hd => hds d (List.mem_reverse.mp hd)
  rw [dropTrailing, List.reverse_append, List.dropWhile_append_of_pos hd]
  cases h : cs.reverse with
  | nil => rw [List.reverse_eq_nil_iff.mp h]; rfl
  | cons c t =>
    have hc := hcs c (by rw [← List.head?_reverse, h]; rfl)
    rw [List.dropWhile_cons, hc, ← h]
    simp

/-- Something that is kept protects what comes before it. -/
theorem dropTrailing_cons (hc : p c = false) :
    dropTrailing p (c :: cs) = c :: dropTrailing p cs := by
  rw [dropTrailing, dropTrailing, List.reverse_cons, List.dropWhile_append]
  split
  · rename_i h
    rw [List.isEmpty_iff.mp h]
    simp [hc]
  · simp

end Text

namespace Frame

/-! ## Lines -/

/-- A line is read up to its line feed. -/
theorem takeLine_line {l : List UInt8} (h : lineFeed ∉ l) {cap : Nat} (hl : l.length < cap)
    (r : List UInt8) : takeLine cap (l ++ lineFeed :: r) = (l ++ [lineFeed], r) := by
  induction l generalizing cap with
  | nil =>
    obtain ⟨cap, rfl⟩ : ∃ n, cap = n + 1 := ⟨cap - 1, by simp at hl; omega⟩
    rfl
  | cons b l ih =>
    rw [List.mem_cons, not_or] at h
    rw [List.length_cons] at hl
    obtain ⟨cap, rfl⟩ : ∃ n, cap = n + 1 := ⟨cap - 1, by omega⟩
    rw [List.cons_append, takeLine, if_neg (Ne.symm h.1), ih h.2 (by omega)]
    rfl

/-- A line that does not end takes everything. -/
theorem takeLine_cut {l : List UInt8} (h : lineFeed ∉ l) {cap : Nat} (hl : l.length ≤ cap) :
    takeLine cap l = (l, []) := by
  induction l generalizing cap with
  | nil => cases cap <;> rfl
  | cons b l ih =>
    rw [List.mem_cons, not_or] at h
    rw [List.length_cons] at hl
    obtain ⟨cap, rfl⟩ : ∃ n, cap = n + 1 := ⟨cap - 1, by omega⟩
    rw [takeLine, if_neg (Ne.symm h.1), ih h.2 (by omega)]

/-- A line that is too long is taken in part. -/
theorem takeLine_long {l : List UInt8} (h : lineFeed ∉ l) {cap : Nat} (hl : cap ≤ l.length)
    (r : List UInt8) : takeLine cap (l ++ r) = (l.take cap, l.drop cap ++ r) := by
  induction l generalizing cap with
  | nil =>
    obtain rfl : cap = 0 := Nat.le_zero.mp hl
    rfl
  | cons b l ih =>
    rw [List.mem_cons, not_or] at h
    rw [List.length_cons] at hl
    cases cap with
    | zero => rfl
    | succ cap =>
      rw [List.cons_append, takeLine, if_neg (Ne.symm h.1), ih h.2 (by omega)]
      rfl

/-- Digits give the number that they write. -/
theorem digitsValue?_digits {cs : List Char} (h : ∀ c ∈ cs, c.isDigit = true) (s : Nat) :
    digitsValue? s cs = some (Nat.ofDigitChars 10 cs s) := by
  induction cs generalizing s with
  | nil => rfl
  | cons c cs ih =>
    rw [digitsValue?, if_pos (h c List.mem_cons_self), Nat.ofDigitChars_cons, Nat.mul_comm s,
      ih fun d hd => h d (List.mem_cons_of_mem _ hd)]

/-- A length is read back from its digits, if it has 64 bits. -/
theorem byteCount?_toDigits (n : Nat) :
    byteCount? (Nat.toDigits 10 n) = if n < 0x10000000000000000 then some n else none := by
  have hall : ∀ c ∈ Nat.toDigits 10 n, c.isDigit = true := fun c hc =>
    Nat.isDigit_of_mem_toDigits (by omega) (by omega) hc
  have hval : Nat.ofDigitChars 10 (Nat.toDigits 10 n) 0 = n :=
    Nat.ofDigitChars_toDigits (by omega) (by omega)
  cases hds : Nat.toDigits 10 n with
  | nil => exact absurd hds Nat.toDigits_ne_nil
  | cons c cs =>
    rw [hds] at hall hval
    have hc : c ≠ '+' := by
      rintro rfl
      exact absurd (hall '+' List.mem_cons_self) (by decide)
    rw [byteCount?, digitsValue?_digits hall, hval]
    · simp [Option.filter_some]
    · rintro ds heq
      exact hc (List.cons.inj heq).1

/-- The name of the line that gives a length, as it is written. -/
def writtenName : List Char := "Content-Length: ".toList

/-- The line that gives a length, without its line feed. -/
def lengthText (n : Nat) : List Char :=
  writtenName ++ Nat.toDigits 10 n ++ ['\r']

/-- A number is written in digits only. -/
theorem isDigit_toDigits {n : Nat} {c : Char} (hc : c ∈ Nat.toDigits 10 n) : c.isDigit = true :=
  Nat.isDigit_of_mem_toDigits (by omega) (by omega) hc

/-- No digit is a blank. -/
theorem isBlank_of_isDigit {c : Char} (h : c.isDigit = true) : Text.isBlank c = false := by
  obtain ⟨h₁, h₂⟩ := Json.isDigit_iff.mp h
  simp [Text.isBlank]
  omega

/-- No digit ends a line. -/
theorem isLineEnd_of_isDigit {c : Char} (h : c.isDigit = true) : isLineEnd c = false := by
  rw [isLineEnd, Bool.or_eq_false_iff, decide_eq_false_iff_not, decide_eq_false_iff_not]
  constructor
  · rintro rfl
    exact absurd h (by decide)
  · rintro rfl
    exact absurd h (by decide)

/-- A length is read back from the text of its line. -/
theorem ofText_length (n : Nat) :
    HeaderLine.ofText (writtenName ++ Nat.toDigits 10 n) =
      if n < 0x10000000000000000 then .ok (.length n)
      else .error (.badLength (Nat.toDigits 10 n)) := by
  -- Of the digits nothing matters here but that they are digits and what they give.
  have hcount := byteCount?_toDigits n
  have hall : ∀ c ∈ Nat.toDigits 10 n, c.isDigit = true := fun c hc => isDigit_toDigits hc
  generalize Nat.toDigits 10 n = ds at hcount hall
  -- The blank behind the colon is trimmed, and nothing else.
  have htrim : Text.trim (' ' :: ds) = ds := by
    have hdrop : (' ' :: ds).dropWhile Text.isBlank = ds := by
      cases ds with
      | nil => rfl
      | cons d ds =>
        have hd := isBlank_of_isDigit (hall d List.mem_cons_self)
        rw [List.dropWhile_cons_of_pos (by decide),
          List.dropWhile_cons_of_neg (by rw [hd]; rintro ⟨⟩)]
    rw [Text.trim, Text.dropAround, hdrop]
    have h : Text.dropTrailing Text.isBlank (ds ++ []) = ds :=
      Text.dropTrailing_append (fun c hc => isBlank_of_isDigit (hall c (List.mem_of_getLast? hc)))
        (by simp)
    rwa [List.append_nil] at h
  have hname : Text.sameIgnoringCase (Text.trim "Content-Length".toList) lengthName = true := by
    decide
  have hsplit : (writtenName ++ ds).dropWhile (· ≠ ':') = ':' :: ' ' :: ds := rfl
  have htake : (writtenName ++ ds).takeWhile (· ≠ ':') = "Content-Length".toList := rfl
  rw [HeaderLine.ofText, if_neg (by rintro ⟨⟩), hsplit, htake]
  by_cases hn : n < 0x10000000000000000
  · simp only [hname, if_true, htrim, hcount, if_pos hn]
  · simp only [hname, if_true, htrim, hcount, if_neg hn]

/-- The line that gives the length of a body. -/
def lengthLine (n : Nat) : List UInt8 := Utf8.encodeChars (lengthText n)

/-- The four characters that end a header block. -/
theorem encodeChars_blockEnd (cs : List Char) :
    Utf8.encodeChars (cs ++ ['\r', '\n', '\r', '\n']) =
      Utf8.encodeChars (cs ++ ['\r']) ++ [lineFeed, 0x0D, lineFeed] := by
  have hend : Utf8.encodeChars ['\r', '\n', '\r', '\n'] =
      Utf8.encodeChars ['\r'] ++ [lineFeed, 0x0D, lineFeed] := by decide
  rw [Utf8.encodeChars_append, hend, Utf8.encodeChars_append, List.append_assoc]

/-- A header is the line of the length and an empty line. -/
theorem header_eq (n : Nat) : header n = lengthLine n ++ [lineFeed, 0x0D, lineFeed] :=
  encodeChars_blockEnd _

/-- The bytes of a whole line are those of its text. -/
theorem encodeChars_line (cs : List Char) :
    Utf8.encodeChars cs ++ [lineFeed] = Utf8.encodeChars (cs ++ ['\n']) := by
  rw [Utf8.encodeChars_append]
  exact congrArg _ (by decide)

/-- What the line says. -/
theorem ofBytes_lengthLine (n : Nat) :
    HeaderLine.ofBytes (lengthLine n ++ [lineFeed]) =
      if n < 0x10000000000000000 then .ok (.length n)
      else .error (.badLength (Nat.toDigits 10 n)) := by
  have hdecode : Utf8.decode (lengthLine n ++ [lineFeed]) = .ok (lengthText n ++ ['\n']) := by
    rw [lengthLine, encodeChars_line]
    exact Utf8.decode_encodeChars _
  have hdrop : Text.dropTrailing isLineEnd (lengthText n ++ ['\n']) =
      writtenName ++ Nat.toDigits 10 n := by
    rw [lengthText, List.append_assoc]
    refine Text.dropTrailing_append (fun c hc => ?_)
      (List.forall_mem_cons.mpr ⟨rfl, List.forall_mem_singleton.mpr rfl⟩)
    have hsome : (Nat.toDigits 10 n).getLast?.isSome = true :=
      Option.isSome_iff_ne_none.mpr fun h =>
        Nat.toDigits_ne_nil (List.getLast?_eq_none_iff.mp h)
    rw [List.getLast?_append, Option.or_of_isSome hsome] at hc
    exact isLineEnd_of_isDigit (isDigit_toDigits (List.mem_of_getLast? hc))
  have hlast : (lengthLine n ++ [lineFeed]).getLast? = some lineFeed := List.getLast?_concat
  rw [HeaderLine.ofBytes, hdecode]
  simp only [hlast, ne_eq, not_true_eq_false, and_false, if_false]
  rw [hdrop, ofText_length]

/-- The bytes of digits. -/
theorem encodeChars_digits {cs : List Char} (h : ∀ c ∈ cs, c.isDigit = true) :
    (Utf8.encodeChars cs).length = cs.length ∧ lineFeed ∉ Utf8.encodeChars cs := by
  induction cs with
  | nil => exact ⟨rfl, List.not_mem_nil⟩
  | cons c cs ih =>
    obtain ⟨b, hb, hd, -⟩ := Json.utf8EncodeChar_digit (h c List.mem_cons_self)
    obtain ⟨hlen, hmem⟩ := ih fun d hd => h d (List.mem_cons_of_mem _ hd)
    rw [Utf8.encodeChars_cons, hb, List.singleton_append, List.length_cons, List.length_cons, hlen,
      List.mem_cons, not_or]
    refine ⟨rfl, ?_, hmem⟩
    rintro rfl
    exact absurd hd (by decide)

/-- A digit takes one byte, and none of them is a line feed. -/
theorem encodeChars_toDigits (n : Nat) :
    (Utf8.encodeChars (Nat.toDigits 10 n)).length = (Nat.toDigits 10 n).length ∧
      lineFeed ∉ Utf8.encodeChars (Nat.toDigits 10 n) :=
  encodeChars_digits fun _ hc => isDigit_toDigits hc

/-- The line of the length begins with the name and ends with a carriage return. -/
theorem lengthLine_eq (n : Nat) :
    lengthLine n = Utf8.encodeChars writtenName ++
      (Utf8.encodeChars (Nat.toDigits 10 n) ++ [0x0D]) := by
  have hend : Utf8.encodeChars ['\r'] = [0x0D] := by decide
  rw [lengthLine, lengthText, Utf8.encodeChars_append, Utf8.encodeChars_append, List.append_assoc]
  exact congrArg (_ ++ ·) (congrArg (_ ++ ·) hend)

/-- The line of the length is one line. -/
theorem lineFeed_notMem_lengthLine (n : Nat) : lineFeed ∉ lengthLine n := by
  have h := (encodeChars_toDigits n).2
  rw [lengthLine_eq, List.mem_append, List.mem_append, not_or, not_or]
  exact ⟨by decide, h, by decide⟩

/-- A line that gives a length of 64 bits is short. -/
theorem length_lengthLine {n : Nat} (hn : n < 0x10000000000000000) :
    (lengthLine n).length < maxHeaderLine := by
  have h := (encodeChars_toDigits n).1
  have hdigits : (Nat.toDigits 10 n).length ≤ 20 :=
    (Nat.length_toDigits_le_iff (by omega) (by omega)).mpr (by omega)
  have hname : (Utf8.encodeChars writtenName).length = 16 := by decide
  rw [lengthLine_eq, List.length_append, List.length_append, h, hname, List.length_singleton,
    maxHeaderLine]
  omega

/-- The line starts with a C. -/
theorem lengthLine_eq_cons (n : Nat) : ∃ bs, lengthLine n = 0x43 :: bs := ⟨_, rfl⟩

/-- No line that starts with a C ends a block. -/
theorem ofBytes_cons_ne_last (bs : List UInt8) : HeaderLine.ofBytes (0x43 :: bs) ≠ .ok .last := by
  have hdecode : Utf8.decode (0x43 :: bs) = (Utf8.ofPieces 1 (Utf8.pieces bs)).map ('C' :: ·) := by
    rw [Utf8.decode, Utf8.pieces_one bs (by decide)]
    rfl
  rw [HeaderLine.ofBytes, hdecode]
  cases Utf8.ofPieces 1 (Utf8.pieces bs) with
  | error e => rintro ⟨⟩
  | ok cs =>
    have hdrop : Text.dropTrailing isLineEnd ('C' :: cs) =
      'C' :: Text.dropTrailing isLineEnd cs := Text.dropTrailing_cons rfl
    simp only [Except.map, hdrop]
    split
    · rintro ⟨⟩
    · rw [HeaderLine.ofText, if_neg (by rintro ⟨⟩)]
      split
      · rintro ⟨⟩
      · split
        · split <;> rintro ⟨⟩
        · rintro ⟨⟩

/-! ## Header blocks -/

section

variable {limit n : Nat} {seen : Bool} {length : Option Nat} {bs line rest : List UInt8}

/-- One line of a block. -/
theorem readHeader_line (hne : bs ≠ []) (h : takeLine maxHeaderLine bs = (line, rest)) :
    readHeader limit seen length bs =
      match HeaderLine.ofBytes line with
      | .error e => .error e
      | .ok .last => (bodyLength limit length).map fun n => some (n, rest)
      | .ok (.length n) => readHeader limit true (some n) rest
      | .ok .other => readHeader limit true length rest := by
  cases bs with
  | nil => exact absurd rfl hne
  | cons b bs =>
    cases hl : HeaderLine.ofBytes line with
    | error e => simp only [readHeader, h, hl]
    | ok l => cases l <;> simp only [readHeader, h, hl]

/-- A block that has begun cannot end with the stream. -/
theorem readHeader_nil : readHeader limit true length [] = .error .endInFrame := by
  rw [readHeader]
  rfl

/-- The line that gives the length. -/
theorem readHeader_lengthLine (hn : n < 0x10000000000000000) :
    readHeader limit seen length (lengthLine n ++ lineFeed :: rest) =
      readHeader limit true (some n) rest := by
  have hline := takeLine_line (lineFeed_notMem_lengthLine n) (length_lengthLine hn) rest
  rw [readHeader_line (by simp) hline, ofBytes_lengthLine, if_pos hn]

/-- A length of more than 64 bits is refused, and so is a line that is too long. -/
theorem readHeader_lengthLine_refused (hn : 0x10000000000000000 ≤ n) :
    ∃ e, readHeader limit seen length (lengthLine n ++ lineFeed :: rest) = .error e := by
  have hmem := lineFeed_notMem_lengthLine n
  rcases Nat.lt_or_ge (lengthLine n).length maxHeaderLine with hlen | hlen
  · refine ⟨.badLength (Nat.toDigits 10 n), ?_⟩
    rw [readHeader_line (by simp) (takeLine_line hmem hlen rest), ofBytes_lengthLine,
      if_neg (Nat.not_lt.mpr hn)]
  · -- All that is taken of the line are bytes without an end.
    obtain ⟨e, he⟩ : ∃ e, HeaderLine.ofBytes ((lengthLine n).take maxHeaderLine) = .error e := by
      rw [HeaderLine.ofBytes]
      split
      · exact ⟨_, rfl⟩
      · rw [if_pos]
        · exact ⟨_, rfl⟩
        · refine ⟨List.length_take_of_le hlen, fun hlast => ?_⟩
          exact hmem (List.mem_of_mem_take (List.mem_of_getLast? hlast))
    refine ⟨e, ?_⟩
    rw [readHeader_line (by simp) (takeLine_long hmem hlen _), he]

/-- The line that ends a block. -/
theorem readHeader_last (hlimit : n ≤ limit) (hline : HeaderLine.ofBytes line = .ok .last)
    (hne : bs ≠ []) (h : takeLine maxHeaderLine bs = (line, rest)) :
    readHeader limit true (some n) bs = .ok (some (n, rest)) := by
  rw [readHeader_line hne h, hline]
  show Except.map _ (if limit < n then _ else _) = _
  rw [if_neg (by omega)]
  rfl

/-- The limit is checked once the empty line has come. -/
theorem readHeader_last_refused (hlimit : limit < n) (hline : HeaderLine.ofBytes line = .ok .last)
    (hne : bs ≠ []) (h : takeLine maxHeaderLine bs = (line, rest)) :
    readHeader limit true (some n) bs = .error (.frameTooLarge n limit) := by
  rw [readHeader_line hne h, hline]
  show Except.map _ (if limit < n then _ else _) = _
  rw [if_pos hlimit]
  rfl

/-- A line that the end of the string cuts short leads nowhere. -/
theorem readHeader_cut {bs : List UInt8} (hmem : lineFeed ∉ bs) (hlen : bs.length ≤ maxHeaderLine)
    (hne : bs ≠ []) (hlast : HeaderLine.ofBytes bs ≠ .ok .last) :
    ∃ e, readHeader limit seen length bs = .error e := by
  rw [readHeader_line hne (takeLine_cut hmem hlen)]
  cases h : HeaderLine.ofBytes bs with
  | error e => exact ⟨e, rfl⟩
  | ok l =>
    cases l with
    | last => exact absurd h hlast
    | length n => exact ⟨_, readHeader_nil⟩
    | other => exact ⟨_, readHeader_nil⟩

end

/-! ## Frames -/

section

variable {limit : Nat} {body rest : List UInt8}

/-- The bytes of a header, line by line. -/
theorem header_append (n : Nat) (rest : List UInt8) :
    header n ++ rest = lengthLine n ++ lineFeed :: ([0x0D] ++ lineFeed :: rest) := by
  rw [header_eq, List.append_assoc]
  rfl

/-- An empty line is read as one. -/
theorem takeLine_empty (rest : List UInt8) :
    takeLine maxHeaderLine ([0x0D] ++ lineFeed :: rest) = ([0x0D] ++ [lineFeed], rest) :=
  takeLine_line (by decide) (by decide) rest

/-- The header of a body gives back its length. -/
theorem readHeader_header (hn : body.length < 0x10000000000000000) (hlimit : body.length ≤ limit) :
    readHeader limit false none (header body.length ++ rest) = .ok (some (body.length, rest)) := by
  have hlast : HeaderLine.ofBytes ([0x0D] ++ [lineFeed]) = .ok .last := rfl
  rw [header_append, readHeader_lengthLine hn,
    readHeader_last hlimit hlast (by simp) (takeLine_empty rest)]

/-- A frame is read back, and nothing after it. -/
theorem nextFrame_frame (hn : body.length < 0x10000000000000000) (hlimit : body.length ≤ limit) :
    nextFrame limit (frame body ++ rest) = .ok (some (body, rest)) := by
  rw [nextFrame, frame, List.append_assoc, readHeader_header hn hlimit]
  simp

/-- A frame that is too large is refused, however large it is. -/
theorem nextFrame_refused (h : ¬(body.length < 0x10000000000000000 ∧ body.length ≤ limit)) :
    ∃ e, nextFrame limit (frame body ++ rest) = .error e := by
  obtain ⟨e, he⟩ : ∃ e, readHeader limit false none (header body.length ++ (body ++ rest)) =
      .error e := by
    rw [header_append]
    by_cases hn : body.length < 0x10000000000000000
    · have hlast : HeaderLine.ofBytes ([0x0D] ++ [lineFeed]) = .ok .last := rfl
      have hlimit : limit < body.length := Nat.not_le.mp fun hle => h ⟨hn, hle⟩
      rw [readHeader_lengthLine hn]
      exact ⟨_, readHeader_last_refused hlimit hlast (by simp) (takeLine_empty _)⟩
    · exact readHeader_lengthLine_refused (Nat.not_lt.mp hn)
  refine ⟨e, ?_⟩
  rw [nextFrame, frame, List.append_assoc, he]

/-- A frame of which something is missing is refused. -/
theorem nextFrame_cut (hn : body.length < 0x10000000000000000) (hlimit : body.length ≤ limit)
    (hbody : body ≠ []) {k : Nat} (hk : 0 < k) (hk' : k < (frame body).length) :
    ∃ e, nextFrame limit ((frame body).take k) = .error e := by
  have hpos : 0 < body.length := List.length_pos_iff.mpr hbody
  have hframe : frame body =
      lengthLine body.length ++ lineFeed :: ([0x0D] ++ lineFeed :: body) :=
    header_append body.length body
  have hlen : (frame body).length = (lengthLine body.length).length + 3 + body.length := by
    rw [hframe, List.length_append]
    simp only [List.length_cons, List.length_append, List.length_nil]
    omega
  by_cases hline : k ≤ (lengthLine body.length).length
  · -- The cut is inside the line that gives the length.
    obtain ⟨bs, hbs⟩ := lengthLine_eq_cons body.length
    have hshort := length_lengthLine hn
    obtain ⟨e, he⟩ : ∃ e, readHeader limit false none ((lengthLine body.length).take k) =
        .error e := by
      refine readHeader_cut (fun hm => lineFeed_notMem_lengthLine _ (List.mem_of_mem_take hm))
        (by rw [List.length_take]; omega) ?_ ?_
      · rw [ne_eq, List.take_eq_nil_iff, not_or]
        exact ⟨by omega, by rw [hbs]; rintro ⟨⟩⟩
      · obtain ⟨k, rfl⟩ : ∃ j, k = j + 1 := ⟨k - 1, by omega⟩
        rw [hbs, List.take_succ_cons]
        exact ofBytes_cons_ne_last _
    refine ⟨e, ?_⟩
    rw [hframe, List.take_append_of_le_length hline, nextFrame, he]
  · obtain ⟨j, rfl⟩ : ∃ j, k = (lengthLine body.length).length + (j + 1) :=
      ⟨k - (lengthLine body.length).length - 1, by omega⟩
    rw [hframe, List.take_length_add_append, List.take_succ_cons, nextFrame,
      readHeader_lengthLine hn]
    -- The cut is behind that line: before the empty line, within it, or in the body.
    rcases j with _ | _ | j
    · exact ⟨.endInFrame, by rw [List.take_zero, readHeader_nil]⟩
    · -- The empty line, without its line feed, ends the block, and the body is missing.
      have hlast : HeaderLine.ofBytes [0x0D] = .ok .last := rfl
      have hcut : takeLine maxHeaderLine [0x0D] = ([0x0D], []) :=
        takeLine_cut (by decide) (by decide)
      refine ⟨.endInFrame, ?_⟩
      rw [show List.take 1 ([0x0D] ++ lineFeed :: body) = [0x0D] from rfl,
        readHeader_last hlimit hlast (by simp) hcut]
      exact if_pos hpos
    · have hlast : HeaderLine.ofBytes ([0x0D] ++ [lineFeed]) = .ok .last := rfl
      have hmissing : (body.take j).length < body.length := by
        rw [List.length_take]
        omega
      refine ⟨.endInFrame, ?_⟩
      rw [show List.take (j + 2) ([0x0D] ++ lineFeed :: body) =
          [0x0D] ++ lineFeed :: body.take j from rfl,
        readHeader_last hlimit hlast (by simp) (takeLine_empty _)]
      exact if_pos hmissing

end

end Frame

end Parley

import Mathlib.Data.List.TakeWhile
import Parley.Proofs.Characters
import Parley.Proofs.Framing

/-!
# The strings that start with a frame

The grammar of frames, said about the lines of a string. A frame is read exactly where the grammar
finds one, and not a byte after it is taken. Every other string is refused, for the first line that
offends if there is one, and else for what its header block, or the end of the string, lacks; but a
length that the limit allows and no buffer can have ends the task before it refuses anything.

- `lines`: the lines of a string.
- `Headers`: header lines with the lengths that they give; of several lengths the last one counts.
- `Offends`: the lines that are refused, each with the reason.
- `Starts`, `Overflows`, `Refused`: the strings that start with a frame, those that announce more
  than a buffer can have, and the reasons to refuse the others.
- `reads_frame`: reading finds exactly the first, panics exactly at the second, and refuses exactly
  the third.
-/

namespace Parley.Frame

/-! ## The grammar -/

/-- The lines of a string: each one ends with its line feed. The last one may have none. -/
def lines : List UInt8 → List (List UInt8)
  | [] => []
  | b :: bs =>
    if b = lineFeed then [b] :: lines bs
    else
      match lines bs with
      | [] => [[b]]
      | l :: ls => (b :: l) :: ls

/-- A line that is a text and has its end in time. -/
structure Reads (l : List UInt8) (cs : List Char) : Prop where
  text : l = Utf8.encodeChars cs
  length_le : l.length ≤ maxHeaderLine
  ended : l.length = maxHeaderLine → l.getLast? = some lineFeed

/-- The line that ends a block. -/
def Ends (l : List UInt8) : Prop :=
  ∃ cs, Reads l cs ∧ ∀ c ∈ cs, c = '\r' ∨ c = '\n'

/-- A line that has, its end removed, this name before its first colon, and this value behind it. -/
def Pairs (l : List UInt8) (name value : List Char) : Prop :=
  ∃ cs, Reads l cs ∧ Text.dropTrailing isLineEnd cs = name ++ ':' :: value ∧ ':' ∉ name

/-- The digits of a number of 64 bits. -/
structure Digits (ds : List Char) (n : Nat) : Prop where
  ne_nil : ds ≠ []
  isDigit : ∀ c ∈ ds, c.isDigit = true
  value : Nat.ofDigitChars 10 ds 0 = n
  lt : n < 0x10000000000000000

/-- The texts of counts: digits, possibly behind a plus sign. -/
inductive Count : List Char → Nat → Prop where
  | digits {ds : List Char} {n : Nat} (h : Digits ds n) : Count ds n
  | plus {ds : List Char} {n : Nat} (h : Digits ds n) : Count ('+' :: ds) n

/-- Whether a name is the one that gives the length. -/
def NamesLength (name : List Char) : Prop :=
  Text.sameIgnoringCase (Text.trim name) lengthName = true

/-- Header lines, with the lengths that they give. -/
inductive Headers : List (List UInt8) → List Nat → Prop where
  | nil : Headers [] []
  | length {l : List UInt8} {name value : List Char} {n : Nat} {ls : List (List UInt8)}
      {ns : List Nat} (hl : Pairs l name value) (hname : NamesLength name)
      (hv : Count (Text.trim value) n) (h : Headers ls ns) : Headers (l :: ls) (n :: ns)
  | other {l : List UInt8} {name value : List Char} {ls : List (List UInt8)} {ns : List Nat}
      (hl : Pairs l name value) (hname : ¬NamesLength name) (h : Headers ls ns) :
      Headers (l :: ls) ns

/-- The lines that neither end a block nor belong to one. -/
inductive Offends (l : List UInt8) : ReadError → Prop where
  /-- It has bytes that are no text, among those that it may have. -/
  | notText {fault : Utf8.Fault} (h : Utf8.decode (l.take maxHeaderLine) = .error fault) :
      Offends l (.headerNotText fault)
  /-- It has no end among them. -/
  | tooLong {cs : List Char} (h : l.take maxHeaderLine = Utf8.encodeChars cs)
      (hlen : maxHeaderLine ≤ l.length) (hend : lineFeed ∉ l.take maxHeaderLine) :
      Offends l .lineTooLong
  | noColon {cs : List Char} (h : Reads l cs) (hne : ∃ c ∈ cs, c ≠ '\r' ∧ c ≠ '\n')
      (hcolon : ':' ∉ cs) : Offends l (.noColon (Text.dropTrailing isLineEnd cs))
  | badLength {name value : List Char} (hl : Pairs l name value) (hname : NamesLength name)
      (hv : ∀ n, ¬Count (Text.trim value) n) : Offends l (.badLength (Text.trim value))

/-- A string that starts with a whole header block, with the lengths that the block gives and with
what follows it. -/
inductive Block : List UInt8 → List Nat → List UInt8 → Prop where
  | mk {s e : List UInt8} {ls rest : List (List UInt8)} {ns : List Nat}
      (hs : lines s = ls ++ e :: rest) (h : Headers ls ns) (he : Ends e) :
      Block s ns rest.flatten

/-- A string that starts with a frame of this body. -/
def Starts (limit : Nat) (s body rest : List UInt8) : Prop :=
  ∃ ns, Block s ns (body ++ rest) ∧ ns.getLast? = some body.length ∧ body.length ≤ limit ∧
    body.length ≤ maxBuffer

/-- A string that announces a body which the limit allows and which fits into no buffer. -/
def Overflows (limit : Nat) (s : List UInt8) (n : Nat) : Prop :=
  ∃ ns rest, Block s ns rest ∧ ns.getLast? = some n ∧ n ≤ limit ∧ maxBuffer < n

/-- The strings that start with no frame, although they are not empty, and announce nothing that no
buffer can have, with the reasons to refuse them. -/
inductive Refused (limit : Nat) (s : List UInt8) : ReadError → Prop where
  /-- The first line that is no header line offends. -/
  | line {l : List UInt8} {ls rest : List (List UInt8)} {ns : List Nat} {e : ReadError}
      (hs : lines s = ls ++ l :: rest) (h : Headers ls ns) (hl : Offends l e) : Refused limit s e
  /-- The string ends before its block does. -/
  | unended {ns : List Nat} (hne : s ≠ []) (h : Headers (lines s) ns) :
      Refused limit s .endInFrame
  | noLength {rest : List UInt8} (h : Block s [] rest) : Refused limit s .noLength
  | tooLarge {ns : List Nat} {n : Nat} {rest : List UInt8} (h : Block s ns rest)
      (hn : ns.getLast? = some n) (hlimit : limit < n) : Refused limit s (.frameTooLarge n limit)
  /-- The string ends before the body does. -/
  | cut {ns : List Nat} {n : Nat} {rest : List UInt8} (h : Block s ns rest)
      (hn : ns.getLast? = some n) (hlimit : n ≤ limit) (hroom : n ≤ maxBuffer)
      (hcut : rest.length < n) : Refused limit s .endInFrame

/-! ## Lines -/

section

variable {s l : List UInt8} {ls ms : List (List UInt8)}

theorem lines_cons (b : UInt8) (bs : List UInt8) : lines (b :: bs) ≠ [] := by
  rw [lines]
  split
  · exact List.cons_ne_nil _ _
  · split <;> exact List.cons_ne_nil _ _

theorem lines_eq_nil : lines s = [] ↔ s = [] := by
  cases s with
  | nil => exact ⟨fun _ => rfl, fun _ => rfl⟩
  | cons b bs => simp [lines_cons]

/-- The lines make up the string. -/
theorem flatten_lines (s : List UInt8) : (lines s).flatten = s := by
  fun_induction lines s with
  | case1 => rfl
  | case2 bs ih => rw [List.flatten_cons, ih, List.singleton_append]
  | case3 b bs hb h ih =>
    rw [h] at ih
    rw [← ih]
    rfl
  | case4 b bs hb l ls h ih =>
    rw [h] at ih
    rw [← ih]
    rfl

/-- What follows the first line has the other lines. -/
theorem lines_rest (h : lines s = l :: ls) : lines ls.flatten = ls := by
  fun_induction lines s generalizing l with
  | case1 => cases h
  | case2 bs ih =>
    obtain ⟨-, rfl⟩ := List.cons.inj h
    rw [flatten_lines]
  | case3 b bs hb h' ih =>
    obtain ⟨-, rfl⟩ := List.cons.inj h
    rfl
  | case4 b bs hb m ms h' ih =>
    obtain ⟨-, rfl⟩ := List.cons.inj h
    exact ih h'

/-- So does what follows the first few lines. -/
theorem lines_flatten (h : lines s = ms ++ ls) : lines ls.flatten = ls := by
  induction ms generalizing s with
  | nil =>
    rw [List.nil_append] at h
    rw [← h, flatten_lines]
  | cons m ms ih => exact ih (lines_rest h)

/-- A line is taken as far as it may go, and what is left of it stays with the rest. -/
theorem takeLine_lines (cap : Nat) (h : lines s = l :: ls) :
    takeLine cap s = (l.take cap, l.drop cap ++ ls.flatten) := by
  -- Along the lines. A line feed ends the first one; a cap within it cuts it there, and what is cut
  -- off stays in front.
  fun_induction lines s generalizing l cap with
  | case1 => cases h
  | case2 bs ih =>
    obtain ⟨rfl, rfl⟩ := List.cons.inj h
    rw [flatten_lines]
    cases cap <;> simp [takeLine]
  | case3 b bs hb h' ih =>
    obtain ⟨rfl, rfl⟩ := List.cons.inj h
    obtain rfl := lines_eq_nil.mp h'
    cases cap with
    | zero => rfl
    | succ cap => cases cap <;> simp [takeLine, hb]
  | case4 b bs hb m ms h' ih =>
    obtain ⟨rfl, rfl⟩ := List.cons.inj h
    cases cap with
    | zero =>
      have hbs := flatten_lines bs
      rw [h', List.flatten_cons] at hbs
      simp [takeLine, hbs]
    | succ cap => simp [takeLine, hb, ih cap h']

/-- Only the last byte of a line is a line feed. -/
theorem lineFeed_notMem_dropLast (hl : l ∈ lines s) : lineFeed ∉ l.dropLast := by
  fun_induction lines s generalizing l with
  | case1 => cases hl
  | case2 bs ih =>
    rcases List.mem_cons.mp hl with rfl | hl
    · exact List.not_mem_nil
    · exact ih hl
  | case3 b bs hb h ih =>
    rw [List.mem_singleton.mp hl]
    exact List.not_mem_nil
  | case4 b bs hb m ms h ih =>
    rw [h] at ih
    rcases List.mem_cons.mp hl with rfl | hl
    · cases m with
      | nil => exact List.not_mem_nil
      | cons c m =>
        rw [List.dropLast_cons_cons, List.mem_cons, not_or]
        exact ⟨Ne.symm hb, ih List.mem_cons_self⟩
    · exact ih (List.mem_cons_of_mem _ hl)

/-- A line that has its line feed among some bytes has no byte behind them. -/
theorem getLast?_of_mem_take {n : Nat} (hl : lineFeed ∉ l.dropLast) (h : lineFeed ∈ l.take n) :
    l.length ≤ n ∧ l.getLast? = some lineFeed := by
  have hmem : lineFeed ∈ l := List.mem_of_mem_take h
  constructor
  · refine Nat.le_of_not_lt fun hn => hl ?_
    rw [List.dropLast_eq_take]
    exact (List.take_prefix_take_left (by omega)).mem h
  · have hne := List.ne_nil_of_mem hmem
    rw [← List.dropLast_concat_getLast hne, List.mem_append, List.mem_singleton] at hmem
    rw [List.getLast?_eq_some_getLast hne, ← hmem.resolve_left hl]

end

/-! ## Counts -/

theorem isDigit_of_digitsValue? {cs : List Char} {s n : Nat} (h : digitsValue? s cs = some n) :
    ∀ c ∈ cs, c.isDigit = true := by
  induction cs generalizing s with
  | nil => exact List.forall_mem_nil _
  | cons c cs ih =>
    rw [digitsValue?] at h
    split at h
    · next hc => exact List.forall_mem_cons.mpr ⟨hc, ih h⟩
    · cases h

/-- Without a sign, the digits are all that there is. -/
theorem byteCount?_unsigned {cs : List Char} (h : ∀ ds, cs ≠ '+' :: ds) :
    byteCount? cs = if cs.isEmpty then none
      else (digitsValue? 0 cs).filter (· < 0x10000000000000000) := by
  rw [byteCount?]
  exact h

/-- The number that digits give. -/
theorem filter_digitsValue? {ds : List Char} {n : Nat} :
    (if ds.isEmpty then none else (digitsValue? 0 ds).filter (· < 0x10000000000000000)) = some n ↔
      Digits ds n := by
  constructor
  · intro h
    split at h
    · cases h
    · next hne =>
      obtain ⟨h, hn⟩ := Option.filter_eq_some_iff.mp h
      have hd := isDigit_of_digitsValue? h
      rw [digitsValue?_digits hd] at h
      exact ⟨by simpa using hne, hd, Option.some.inj h, by simpa using hn⟩
  · rintro ⟨hne, hd, hv, hn⟩
    rw [if_neg (by simpa using hne), digitsValue?_digits hd, hv]
    exact Option.filter_eq_some_iff.mpr ⟨rfl, by simpa using hn⟩

theorem byteCount?_eq_some {cs : List Char} {n : Nat} : byteCount? cs = some n ↔ Count cs n := by
  by_cases hplus : ∃ ds, cs = '+' :: ds
  · obtain ⟨ds, rfl⟩ := hplus
    refine filter_digitsValue?.trans ⟨.plus, ?_⟩
    rintro (⟨h⟩ | ⟨h⟩)
    · -- A plus sign is no digit.
      exact absurd (h.isDigit '+' List.mem_cons_self) (by decide)
    · exact h
  · rw [byteCount?_unsigned fun ds hds => hplus ⟨ds, hds⟩]
    refine filter_digitsValue?.trans ⟨.digits, ?_⟩
    rintro (⟨h⟩ | ⟨h⟩)
    · exact h
    · exact absurd ⟨_, rfl⟩ hplus

/-! ## One line -/

theorem isLineEnd_iff {c : Char} : isLineEnd c = true ↔ c = '\r' ∨ c = '\n' := by
  simp [isLineEnd]

theorem dropTrailing_eq_nil {cs : List Char} :
    Text.dropTrailing isLineEnd cs = [] ↔ ∀ c ∈ cs, c = '\r' ∨ c = '\n' := by
  simp [Text.dropTrailing, List.dropWhile_eq_nil_iff, isLineEnd_iff]

/-- The end of a line has no colon. -/
theorem colon_mem_dropTrailing {cs : List Char} :
    ':' ∈ Text.dropTrailing isLineEnd cs ↔ ':' ∈ cs := by
  have hcolon : isLineEnd ':' = false := by decide
  rw [Text.dropTrailing, List.mem_reverse]
  constructor
  · exact fun h => List.mem_reverse.mp ((List.dropWhile_sublist _).mem h)
  · intro h
    rw [← List.mem_reverse,
      ← List.takeWhile_append_dropWhile (p := isLineEnd) (l := cs.reverse)] at h
    rcases List.mem_append.mp h with h | h
    · cases hcolon.symm.trans (List.mem_takeWhile_imp h)
    · exact h

section

variable {limit : Nat} {seen : Bool} {length : Option Nat} {s l : List UInt8}
  {ls ms : List (List UInt8)} {ns : List Nat} {cs name value : List Char} {e : ReadError}

theorem ofText_pair (h : ':' ∉ name) (value : List Char) :
    HeaderLine.ofText (name ++ ':' :: value) =
      if Text.sameIgnoringCase (Text.trim name) lengthName then
        (byteCount? (Text.trim value)).elim (.error (.badLength (Text.trim value)))
          fun n => .ok (.length n)
      else .ok .other := by
  have hne : ∀ c ∈ name, decide (c ≠ ':') = true := fun c hc =>
    decide_eq_true (ne_of_mem_of_not_mem hc h)
  have hvalue : (name ++ ':' :: value).dropWhile (fun c => decide (c ≠ ':')) = ':' :: value := by
    rw [List.dropWhile_append_of_pos hne]
    rfl
  have hname : (name ++ ':' :: value).takeWhile (fun c => decide (c ≠ ':')) = name := by
    rw [List.takeWhile_append_of_pos hne]
    exact List.append_nil name
  rw [HeaderLine.ofText, if_neg (by simp), hvalue, hname]
  cases hcount : byteCount? (Text.trim value) with
  | none => simp only [hcount, Option.elim_none]
  | some n => simp only [hcount, Option.elim_some]

theorem ofText_noColon (hne : cs ≠ []) (h : ':' ∉ cs) :
    HeaderLine.ofText cs = .error (.noColon cs) := by
  have hdrop : cs.dropWhile (· ≠ ':') = [] := by
    rw [List.dropWhile_eq_nil_iff]
    exact fun c hc => decide_eq_true (ne_of_mem_of_not_mem hc h)
  rw [HeaderLine.ofText, if_neg (by simpa using hne), hdrop]

theorem Reads.ofBytes (h : Reads l cs) :
    HeaderLine.ofBytes l = HeaderLine.ofText (Text.dropTrailing isLineEnd cs) := by
  rw [HeaderLine.ofBytes, Utf8.decode_eq_ok.mpr h.text]
  exact if_neg fun hlong => hlong.2 (h.ended hlong.1)

theorem Ends.ofBytes (h : Ends l) : HeaderLine.ofBytes l = .ok .last := by
  obtain ⟨cs, hl, hcs⟩ := h
  rw [hl.ofBytes, dropTrailing_eq_nil.mpr hcs]
  rfl

theorem Pairs.ofBytes_length {n : Nat} (h : Pairs l name value) (hname : NamesLength name)
    (hv : Count (Text.trim value) n) : HeaderLine.ofBytes l = .ok (.length n) := by
  obtain ⟨cs, hl, hcs, hcolon⟩ := h
  rw [NamesLength] at hname
  rw [hl.ofBytes, hcs, ofText_pair hcolon, if_pos hname, byteCount?_eq_some.mpr hv,
    Option.elim_some]

theorem Pairs.ofBytes_other (h : Pairs l name value) (hname : ¬NamesLength name) :
    HeaderLine.ofBytes l = .ok .other := by
  obtain ⟨cs, hl, hcs, hcolon⟩ := h
  rw [NamesLength] at hname
  rw [hl.ofBytes, hcs, ofText_pair hcolon, if_neg hname]

/-- A line that is not too long is taken whole. -/
theorem Reads.take (h : Reads l cs) : l.take maxHeaderLine = l :=
  List.take_of_length_le h.length_le

/-- What is taken of a line that offends is refused. -/
theorem Offends.ofBytes (h : Offends l e) :
    HeaderLine.ofBytes (l.take maxHeaderLine) = .error e := by
  cases h with
  | notText h => rw [HeaderLine.ofBytes, h]
  | tooLong h hlen hend =>
    rw [HeaderLine.ofBytes, Utf8.decode_eq_ok.mpr h]
    exact if_pos ⟨List.length_take_of_le hlen, fun hlast => hend (List.mem_of_getLast? hlast)⟩
  | @noColon cs hl hne hcolon =>
    rw [hl.take, hl.ofBytes]
    refine ofText_noColon (fun h => ?_) (mt colon_mem_dropTrailing.mp hcolon)
    obtain ⟨c, hc, hr, hn⟩ := hne
    exact (dropTrailing_eq_nil.mp h c hc).elim hr hn
  | @badLength name value hl hname hv =>
    have hcount : byteCount? (Text.trim value) = none :=
      Option.eq_none_iff_forall_ne_some.mpr fun n hn => hv n (byteCount?_eq_some.mp hn)
    obtain ⟨cs, hl, hcs, hcolon⟩ := hl
    rw [NamesLength] at hname
    rw [hl.take, hl.ofBytes, hcs, ofText_pair hcolon, if_pos hname, hcount, Option.elim_none]

/-- A line that is a text, and not too long, ends a block, has a colon, or offends for want of
one. -/
theorem Reads.cases (h : Reads l cs) :
    Ends l ∨ (∃ name value, Pairs l name value) ∨ ∃ e, Offends l e := by
  by_cases hcolon : ':' ∈ cs
  · obtain ⟨name, value, hcs, hname⟩ :=
      List.eq_append_cons_of_mem (colon_mem_dropTrailing.mpr hcolon)
    exact .inr (.inl ⟨name, value, cs, h, hcs, hname⟩)
  · by_cases hend : ∀ c ∈ cs, c = '\r' ∨ c = '\n'
    · exact .inl ⟨cs, h, hend⟩
    · simp only [Classical.not_forall, not_or] at hend
      obtain ⟨c, hc, hne⟩ := hend
      exact .inr (.inr ⟨_, .noColon h ⟨c, hc, hne⟩ hcolon⟩)

/-- A line is a text, and not too long, or it offends. -/
theorem reads_or_offends (hl : l ∈ lines s) : (∃ cs, Reads l cs) ∨ ∃ e, Offends l e := by
  cases hcs : Utf8.decode (l.take maxHeaderLine) with
  | error fault => exact .inr ⟨_, .notText hcs⟩
  | ok cs =>
    rw [Utf8.decode_eq_ok] at hcs
    by_cases hend : maxHeaderLine ≤ l.length ∧ lineFeed ∉ l.take maxHeaderLine
    · exact .inr ⟨_, .tooLong hcs hend.1 hend.2⟩
    · rw [Decidable.not_and_iff_not_or_not, not_le, Decidable.not_not] at hend
      rcases hend with hlen | hmem
      · rw [List.take_of_length_le (Nat.le_of_lt hlen)] at hcs
        exact .inl ⟨cs, hcs, Nat.le_of_lt hlen, fun h => absurd h (Nat.ne_of_lt hlen)⟩
      · obtain ⟨hlen, hlast⟩ := getLast?_of_mem_take (lineFeed_notMem_dropLast hl) hmem
        rw [List.take_of_length_le hlen] at hcs
        exact .inl ⟨cs, hcs, hlen, fun _ => hlast⟩

/-- Every line ends a block, is a header line or offends. -/
theorem cases_line (hl : l ∈ lines s) :
    Ends l ∨ (∃ name value, Pairs l name value ∧
      (NamesLength name → ∃ n, Count (Text.trim value) n)) ∨ ∃ e, Offends l e := by
  rcases reads_or_offends hl with ⟨cs, h⟩ | h
  · rcases h.cases with h | ⟨name, value, h⟩ | h
    · exact .inl h
    · by_cases hv : NamesLength name → ∃ n, Count (Text.trim value) n
      · exact .inr (.inl ⟨name, value, h, hv⟩)
      · rw [Classical.not_imp, not_exists] at hv
        exact .inr (.inr ⟨_, .badLength h hv.1 hv.2⟩)
    · exact .inr (.inr h)
  · exact .inr (.inr h)

/-! ## Blocks -/

/-- A line that is a text, and not too long, is read whole. -/
theorem readHeader_reads (hs : lines s = l :: ls) (h : Reads l cs) :
    readHeader limit seen length s =
      match HeaderLine.ofBytes l with
      | .error e => .error e
      | .ok .last => (bodyLength limit length).map fun n => some (n, ls.flatten)
      | .ok (.length n) => readHeader limit true (some n) ls.flatten
      | .ok .other => readHeader limit true length ls.flatten := by
  have hne : s ≠ [] := by
    rintro rfl
    cases hs
  have htake := takeLine_lines maxHeaderLine hs
  rw [h.take, List.drop_of_length_le h.length_le, List.nil_append] at htake
  exact readHeader_line hne htake

/-- Header lines are read one after another. -/
theorem readHeader_headers (h : Headers ms ns) (hs : lines s = ms ++ ls) :
    readHeader limit seen length s =
      readHeader limit (seen || !ms.isEmpty) (ns.getLast?.or length) ls.flatten := by
  induction h generalizing s seen length with
  | nil =>
    rw [List.nil_append] at hs
    rw [← hs, flatten_lines]
    simp
  | @length l name value n ms ns hl hname hv h ih =>
    have ⟨cs, hcs, _⟩ := hl
    rw [readHeader_reads hs hcs, hl.ofBytes_length hname hv]
    refine (ih (lines_rest hs)).trans ?_
    rw [List.getLast?_cons]
    cases ns.getLast? <;> simp
  | @other l name value ms ns hl hname h ih =>
    have ⟨cs, hcs, _⟩ := hl
    rw [readHeader_reads hs hcs, hl.ofBytes_other hname]
    refine (ih (lines_rest hs)).trans ?_
    simp

/-- The line that ends a block is the last one that is looked at. -/
theorem readHeader_ends (hs : lines s = l :: ls) (h : Ends l) :
    readHeader limit seen length s =
      (bodyLength limit length).map fun n => some (n, ls.flatten) := by
  have ⟨cs, hcs, _⟩ := h
  rw [readHeader_reads hs hcs, h.ofBytes]

/-- A line that offends ends the reading. -/
theorem readHeader_offends (hs : lines s = l :: ls) (h : Offends l e) :
    readHeader limit seen length s = .error e := by
  have hne : s ≠ [] := by
    rintro rfl
    cases hs
  rw [readHeader_line hne (takeLine_lines maxHeaderLine hs), h.ofBytes]

/-- Lines are header lines throughout, or up to one that ends the block or offends. -/
theorem cases_lines (hls : ∀ l ∈ ls, l ∈ lines s) :
    (∃ ns, Headers ls ns) ∨
      ∃ ms l rest ns, ls = ms ++ l :: rest ∧ Headers ms ns ∧ (Ends l ∨ ∃ e, Offends l e) := by
  induction ls with
  | nil => exact .inl ⟨[], .nil⟩
  | cons l ls ih =>
    obtain ⟨hl, hls⟩ := List.forall_mem_cons.mp hls
    rcases cases_line hl with he | ⟨name, value, hl, hv⟩ | ho
    · exact .inr ⟨[], l, ls, [], rfl, .nil, .inl he⟩
    · -- A header line goes before the header lines of the rest.
      have more : ∀ {ms ns}, Headers ms ns → ∃ ns, Headers (l :: ms) ns := fun h => by
        by_cases hname : NamesLength name
        · obtain ⟨n, hn⟩ := hv hname
          exact ⟨_, .length hl hname hn h⟩
        · exact ⟨_, .other hl hname h⟩
      rcases ih hls with ⟨ns, h⟩ | ⟨ms, m, rest, ns, rfl, h, hm⟩
      · exact .inl (more h)
      · obtain ⟨ns, h⟩ := more h
        exact .inr ⟨l :: ms, m, rest, ns, rfl, h, hm⟩
    · exact .inr ⟨[], l, ls, [], rfl, .nil, .inr ho⟩

/-! ## Frames -/

variable {body rest : List UInt8}

/-- A block is read, and says how long the body is. -/
theorem Block.readHeader (h : Block s ns rest) :
    readHeader limit false none s =
      (bodyLength limit ns.getLast?).map fun n => some (n, rest) := by
  obtain ⟨hs, h, he⟩ := h
  rw [readHeader_headers h hs, readHeader_ends (lines_flatten hs) he, Option.or_none]

/-- A frame is read, and nothing behind it. -/
theorem Starts.readFrame (h : Starts limit s body rest) :
    readFrame limit s = .ok (.ok (some (body, rest))) := by
  obtain ⟨ns, h, hn, hlimit, hroom⟩ := h
  rw [Frame.readFrame, h.readHeader, hn, bodyLength, if_neg (Nat.not_lt.mpr hlimit)]
  simp [Except.map, Nat.not_lt.mpr hroom]

/-- A length that no buffer can have ends the task, whatever follows the block. -/
theorem Overflows.readFrame {n : Nat} (h : Overflows limit s n) :
    readFrame limit s = .error (.capacityOverflow n) := by
  obtain ⟨ns, rest, h, hn, hlimit, hroom⟩ := h
  rw [Frame.readFrame, h.readHeader, hn, bodyLength, if_neg (Nat.not_lt.mpr hlimit)]
  exact if_pos hroom

/-- A string that starts with no frame is refused. -/
theorem Refused.readFrame (h : Refused limit s e) : readFrame limit s = .ok (.error e) := by
  cases h with
  | line hs h hl =>
    rw [Frame.readFrame, readHeader_headers h hs, readHeader_offends (lines_flatten hs) hl]
  | @unended ns hne h =>
    have hlines : lines s = lines s ++ [] := (List.append_nil _).symm
    have hsome : (lines s).isEmpty = false := by
      rw [List.isEmpty_eq_false_iff]
      exact mt lines_eq_nil.mp hne
    rw [Frame.readFrame, readHeader_headers h hlines, hsome, List.flatten_nil, Bool.not_false,
      Bool.or_true, readHeader_nil]
  | noLength h =>
    rw [Frame.readFrame, h.readHeader]
    rfl
  | tooLarge h hn hlimit =>
    rw [Frame.readFrame, h.readHeader, hn, bodyLength, if_pos hlimit]
    rfl
  | cut h hn hlimit hroom hcut =>
    rw [Frame.readFrame, h.readHeader, hn, bodyLength, if_neg (Nat.not_lt.mpr hlimit)]
    simp [Except.map, Nat.not_lt.mpr hroom, hcut]

/-- What follows a block whose length the limit allows is a frame, or it is not, for want of room or
of bytes. -/
theorem Block.cases {n : Nat} (h : Block s ns rest) (hn : ns.getLast? = some n)
    (hlimit : n ≤ limit) :
    (∃ body rest, Starts limit s body rest) ∨ Overflows limit s n ∨
      Refused limit s .endInFrame := by
  rcases Nat.lt_or_ge maxBuffer n with hroom | hroom
  · exact .inr (.inl ⟨ns, rest, h, hn, hlimit, hroom⟩)
  · rcases Nat.lt_or_ge rest.length n with hcut | hcut
    · exact .inr (.inr (.cut h hn hlimit hroom hcut))
    · have hlen : (rest.take n).length = n := List.length_take_of_le hcut
      refine .inl ⟨rest.take n, rest.drop n, ns, ?_, ?_, ?_, ?_⟩
      · rwa [List.take_append_drop]
      · rw [hlen, hn]
      · rwa [hlen]
      · rwa [hlen]

/-- A string is empty, starts with a frame, announces too much for any buffer or is refused. -/
theorem cases_string (limit : Nat) (s : List UInt8) :
    s = [] ∨ (∃ body rest, Starts limit s body rest) ∨ (∃ n, Overflows limit s n) ∨
      ∃ e, Refused limit s e := by
  by_cases hne : s = []
  · exact .inl hne
  · right
    rcases cases_lines fun l (hl : l ∈ lines s) => hl with
      ⟨ns, h⟩ | ⟨ms, l, tail, ns, hs, h, he | ⟨e, ho⟩⟩
    · exact .inr (.inr ⟨_, .unended hne h⟩)
    · have hb := Block.mk hs h he
      cases hn : ns.getLast? with
      | none =>
        obtain rfl := List.getLast?_eq_none_iff.mp hn
        exact .inr (.inr ⟨_, .noLength hb⟩)
      | some n =>
        rcases Nat.lt_or_ge limit n with hlimit | hlimit
        · exact .inr (.inr ⟨_, .tooLarge hb hn hlimit⟩)
        · exact (hb.cases hn hlimit).imp_right (Or.imp (⟨n, ·⟩) (⟨_, ·⟩))
    · exact .inr (.inr ⟨e, .line hs h ho⟩)

/-- **The grammar of frames.** A frame is read exactly where the grammar finds one, with its body
and with what follows it; none is read exactly from an empty string; and every other string is
refused for the reason that the grammar gives, unless it announces a body that the limit allows and
that is larger than any buffer: there, and only there, the task panics. A limit that a buffer can
have keeps it from that. -/
theorem reads_frame (limit : Nat) (s : List UInt8) :
    (∀ body rest, readFrame limit s = .ok (.ok (some (body, rest))) ↔ Starts limit s body rest) ∧
      (readFrame limit s = .ok (.ok none) ↔ s = []) ∧
      (∀ e, readFrame limit s = .ok (.error e) ↔ Refused limit s e) ∧
      (∀ n, readFrame limit s = .error (.capacityOverflow n) ↔ Overflows limit s n) ∧
      (limit ≤ maxBuffer → ∃ r, readFrame limit s = .ok r) := by
  -- The four sides follow from the four kinds of strings: each is read in its own way, and a string
  -- is of one kind only.
  have hnil : s = [] → readFrame limit s = .ok (.ok none) := by
    rintro rfl
    rw [Frame.readFrame, readHeader]
    rfl
  refine ⟨fun body rest => ⟨fun h => ?_, Starts.readFrame⟩, ⟨fun h => ?_, hnil⟩,
    fun e => ⟨fun h => ?_, Refused.readFrame⟩, fun n => ⟨fun h => ?_, Overflows.readFrame⟩,
    fun hlimit => ⟨_, readFrame_of_le hlimit s⟩⟩
  -- In each of the sixteen cases the reading is known, so either the kinds agree or the results
  -- differ.
  all_goals rcases cases_string limit s with hs | ⟨_, _, hs⟩ | ⟨_, hs⟩ | ⟨_, hs⟩
  · cases (hnil hs).symm.trans h
  · cases hs.readFrame.symm.trans h
    exact hs
  · cases hs.readFrame.symm.trans h
  · cases hs.readFrame.symm.trans h
  · exact hs
  · cases hs.readFrame.symm.trans h
  · cases hs.readFrame.symm.trans h
  · cases hs.readFrame.symm.trans h
  · cases (hnil hs).symm.trans h
  · cases hs.readFrame.symm.trans h
  · cases hs.readFrame.symm.trans h
  · cases hs.readFrame.symm.trans h
    exact hs
  · cases (hnil hs).symm.trans h
  · cases hs.readFrame.symm.trans h
  · cases hs.readFrame.symm.trans h
    exact hs
  · cases hs.readFrame.symm.trans h

/-- A header block that announces one byte more than a buffer can have, and a limit that lets it
through. There is no answer, while a smaller length is refused as the end inside a frame. -/
theorem readFrame_panics :
    let s := (Utf8.encode "Content-Length: 9223372036854775808\r\n\r\n")
    readFrame 0xFFFFFFFFFFFFFFFF s = .error (.capacityOverflow 0x8000000000000000) ∧
      ¬∃ r, readFrame 0xFFFFFFFFFFFFFFFF s = .ok r := by
  intro s
  have h : readFrame 0xFFFFFFFFFFFFFFFF s = .error (.capacityOverflow 0x8000000000000000) := by
    decide +kernel
  exact ⟨h, fun ⟨_, hr⟩ => by cases h.symm.trans hr⟩

end

end Parley.Frame

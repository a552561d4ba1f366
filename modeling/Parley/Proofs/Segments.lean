import Mathlib.Data.List.Forall2
import Mathlib.Data.List.Infix
import Parley.Document.Selector
import Parley.Proofs.Characters
import Parley.Proofs.Marks

/-!
# Globs segment by segment

A glob without classes, groups, escapes and double stars is matched against a whole path, and yet no
sign of it ever reaches over a separator: the path matches if and only if it has as many segments as
the glob, and each of them is described by the one in its place.

- `Stands`, `Spelled`: the bytes that characters of a segment stand for. Separators play no part
  in this.
- `Token.ofText_plain`: such a glob is read character by character.
- `matches_pattern`: its pattern describes what its characters stand for within a path.
- `spelled_iff_segments`: a path that is spelled as a whole is spelled in each segment.
- `Filter.accepts_segmentwise`: **a filter with such a glob accepts the documents whose paths match
  segment by segment**.
-/

namespace Parley

namespace Glob

variable {c : Char} {cs : List Char} {as bs : List UInt8}

/-! ## What characters stand for -/

/-- The bytes that a character of a segment stands for: a star for any run of them, a question mark
for exactly one, every other character for its own. -/
inductive Stands : Char → List UInt8 → Prop where
  | run (bs : List UInt8) : Stands '*' bs
  | one (b : UInt8) : Stands '?' [b]
  | itself {c : Char} (hrun : c ≠ '*') (hone : c ≠ '?') : Stands c (String.utf8EncodeChar c)

/-- Characters one after the other stand for bytes one after the other. -/
inductive Spelled (stands : Char → List UInt8 → Prop) : List Char → List UInt8 → Prop where
  | nil : Spelled stands [] []
  | cons {c : Char} {cs : List Char} {as bs : List UInt8} (h : stands c as)
      (hs : Spelled stands cs bs) : Spelled stands (c :: cs) (as ++ bs)

/-- The bytes that a character of a whole path stands for: only a separator stands for one. -/
def StandsInPath (c : Char) (bs : List UInt8) : Prop :=
  Stands c bs ∧ (c ≠ '/' → separator ∉ bs)

/-- A glob whose only signs are question marks and single stars. -/
structure IsPlain (cs : List Char) : Prop where
  signs : ∀ c ∈ cs, c ∉ ['[', '\x7b', '\x7d', '\\']
  stars : ¬ ['*', '*'] <:+: cs

section Spelling

variable {stands : Char → List UInt8 → Prop}

theorem spelled_nil_iff : Spelled stands [] bs ↔ bs = [] := by
  constructor
  · intro h
    cases h
    rfl
  · rintro rfl
    exact .nil

theorem spelled_cons_iff : Spelled stands (c :: cs) bs ↔
    ∃ as rest, bs = as ++ rest ∧ stands c as ∧ Spelled stands cs rest := by
  constructor
  · intro h
    cases h with
    | cons h hs => exact ⟨_, _, rfl, h, hs⟩
  · rintro ⟨as, rest, rfl, h, hs⟩
    exact .cons h hs

end Spelling

theorem stands_itself (hrun : c ≠ '*') (hone : c ≠ '?') :
    Stands c bs ↔ bs = String.utf8EncodeChar c := by
  constructor
  · intro h
    cases h with
    | run => exact absurd rfl hrun
    | one => exact absurd rfl hone
    | itself => rfl
  · rintro rfl
    exact .itself hrun hone

/-- No character but the separator has its byte. -/
theorem separator_notMem (h : c ≠ '/') : separator ∉ String.utf8EncodeChar c := by
  intro hm
  by_cases hc : c.toNat < 0x80
  · rw [Utf8.utf8EncodeChar_of_lt hc, List.mem_singleton] at hm
    refine h (Char.toNat_inj.mp ?_)
    have hn := congrArg UInt8.toNat hm
    rw [Utf8.toNat_ofNat (by omega)] at hn
    exact hn.symm
  · exact absurd (Utf8.le_of_mem_utf8EncodeChar (Nat.le_of_not_lt hc) hm) (by decide)

/-! ## Reading -/

namespace IsPlain

theorem tail (h : IsPlain (c :: cs)) : IsPlain cs :=
  ⟨fun a ha => h.signs a (List.mem_cons_of_mem c ha),
    fun hs => h.stars (hs.trans (List.suffix_cons c cs).isInfix)⟩

theorem single_star (h : IsPlain ('*' :: cs)) : ∀ ds, cs ≠ '*' :: ds := by
  rintro ds rfl
  exact h.stars ⟨[], ds, rfl⟩

end IsPlain

/-- The sign that a character is which means nothing together with others. -/
def Token.ofChar (c : Char) : Token :=
  if c = '*' then .run else if c = '?' then .one else .literal c

theorem readTokens_plain (h : IsPlain cs) (last : Option Char) (ts : List Token) :
    readTokens last ⟨ts, []⟩ cs = .ok ⟨(cs.map Token.ofChar).reverse ++ ts, []⟩ := by
  induction cs generalizing last ts with
  | nil => rw [readTokens]; rfl
  | cons c cs ih =>
    -- Whatever the character is, its own sign is pushed, and nothing but that.
    have step : readTokens last ⟨ts, []⟩ (c :: cs) =
        readTokens (some c) ⟨Token.ofChar c :: ts, []⟩ cs := by
      have hc := h.signs c List.mem_cons_self
      simp only [List.mem_cons, List.not_mem_nil, or_false, not_or] at hc
      obtain ⟨hopen, hbrace, hclose, hescape⟩ := hc
      by_cases hrun : c = '*'
      · subst hrun
        rw [readTokens]
        · rfl
        · exact h.single_star
      · by_cases hone : c = '?'
        · subst hone
          rw [readTokens]
          rfl
        · by_cases hcomma : c = ','
          · subst hcomma
            rw [readTokens]
            rfl
          · rw [readTokens, Token.ofChar, if_neg hrun, if_neg hone]
            · rfl
            all_goals simp_all
    rw [step, ih h.tail, List.map_cons, List.reverse_cons, List.append_assoc,
      List.singleton_append]

/-- A plain glob is read character by character. -/
theorem Token.ofText_plain (h : IsPlain cs) : Token.ofText cs = .ok (cs.map Token.ofChar) := by
  rw [Token.ofText, readTokens_plain h]
  simp

/-! ## The pattern -/

theorem matches_exactly : (Pattern.exactly as).Matches bs ↔ bs = as := by
  induction as generalizing bs with
  | nil =>
    constructor
    · intro h
      cases h
      rfl
    · rintro rfl
      exact .nothing
  | cons a as ih =>
    have hone : ∀ {bs}, (Pattern.one (.single a)).Matches bs ↔ bs = [a] := by
      intro bs
      constructor
      · intro h
        cases h with
        | one hb => rw [(ByteSet.contains_single a _).mp hb]
      · rintro rfl
        exact .one ((ByteSet.contains_single a a).mpr rfl)
    cases as with
    | nil => exact hone
    | cons a' as =>
      constructor
      · intro h
        cases h with
        | both hp hq => rw [hone.mp hp, ih.mp hq, List.singleton_append]
      · rintro rfl
        exact .both (hone.mpr rfl) (ih.mpr rfl)

/-- After a pattern comes what may follow it. -/
theorem matches_andThen {p : Pattern} {o : Option Pattern} : (p.andThen o).Matches bs ↔
    ∃ as rest, bs = as ++ rest ∧ p.Matches as ∧ (o.getD .nothing).Matches rest := by
  cases o with
  | none =>
    constructor
    · intro h
      exact ⟨bs, [], (List.append_nil bs).symm, h, .nothing⟩
    · rintro ⟨as, rest, rfl, hp, hq⟩
      cases hq
      rwa [List.append_nil]
  | some q =>
    constructor
    · intro h
      cases h with
      | both hp hq => exact ⟨_, _, rfl, hp, hq⟩
    · rintro ⟨as, rest, rfl, hp, hq⟩
      exact .both hp hq

theorem contains_inSegment {b : UInt8} : inSegment.contains b = true ↔ b ≠ separator :=
  ByteSet.contains_allBut separator b

/-- The pattern of a single sign describes what its character stands for within a path. -/
theorem matches_ofChar (c : Char) : ∃ p, (Token.ofChar c).pattern? = some p ∧
    ∀ bs, p.Matches bs ↔ StandsInPath c bs := by
  -- A run, a single and the characters that stand for themselves; in a path a run and a single stop
  -- at the separator.
  by_cases hrun : c = '*'
  · subst hrun
    refine ⟨.many inSegment, by rw [Token.ofChar, if_pos rfl, Token.pattern?], fun bs => ?_⟩
    constructor
    · intro h
      cases h with
      | many h => exact ⟨.run bs, fun _ hm => contains_inSegment.mp (h _ hm) rfl⟩
    · rintro ⟨-, hm⟩
      refine .many fun b hb => contains_inSegment.mpr ?_
      rintro rfl
      exact hm (by decide) hb
  by_cases hone : c = '?'
  · subst hone
    refine ⟨.one inSegment, by rw [Token.ofChar, if_neg hrun, if_pos rfl, Token.pattern?],
      fun bs => ?_⟩
    constructor
    · intro h
      cases h with
      | one h =>
        refine ⟨.one _, fun _ hm => contains_inSegment.mp h ?_⟩
        exact (List.mem_singleton.mp hm).symm
    · rintro ⟨h, hm⟩
      cases h with
      | one b =>
        refine .one (contains_inSegment.mpr ?_)
        rintro rfl
        exact hm (by decide) List.mem_cons_self
      | itself _ h => exact absurd rfl h
  · refine ⟨.exactly (String.utf8EncodeChar c),
      by rw [Token.ofChar, if_neg hrun, if_neg hone, Token.pattern?], fun bs => ?_⟩
    rw [matches_exactly, StandsInPath, stands_itself hrun hone]
    constructor
    · rintro rfl
      exact ⟨rfl, separator_notMem⟩
    · exact And.left

/-- The pattern of a plain glob describes what its characters stand for within a path. -/
theorem matches_pattern (cs : List Char) (bs : List UInt8) :
    (Token.pattern (cs.map Token.ofChar)).Matches bs ↔ Spelled StandsInPath cs bs := by
  have hpattern : Token.pattern (cs.map Token.ofChar) =
      (Token.sequence? (cs.map Token.ofChar)).getD .nothing := by
    unfold Token.pattern
    split
    · next h =>
      -- No character on its own is a double star.
      obtain ⟨c, -, hc⟩ := List.mem_map.mp (h ▸ List.mem_singleton.mpr rfl)
      rw [Token.ofChar] at hc
      split at hc
      · cases hc
      · split at hc <;> cases hc
    · rfl
  rw [hpattern]
  clear hpattern
  induction cs generalizing bs with
  | nil => exact matches_exactly.trans spelled_nil_iff.symm
  | cons c cs ih =>
    obtain ⟨p, hp, hm⟩ := matches_ofChar c
    rw [List.map_cons, Token.sequence?, hp, Option.getD_some, matches_andThen, spelled_cons_iff]
    simp only [hm, ih]

/-! ## Segments -/

section Splitting

variable {α : Type} [BEq α] {sep x : α} {xs ys : List α}

theorem exists_splitOn (sep : α) (xs : List α) : ∃ s ss, xs.splitOn sep = s :: ss :=
  List.exists_cons_of_ne_nil (List.splitOnP_ne_nil _ _)

variable [LawfulBEq α]

theorem splitOn_sep : (sep :: xs).splitOn sep = [] :: xs.splitOn sep := by
  rw [List.splitOn, List.splitOnP_cons_eq_if_modifyHead, if_pos (beq_self_eq_true sep)]
  rfl

theorem splitOn_of_ne (h : x ≠ sep) :
    (x :: xs).splitOn sep = (xs.splitOn sep).modifyHead (x :: ·) := by
  rw [List.splitOn, List.splitOnP_cons_eq_if_modifyHead, if_neg (by simpa using h)]
  rfl

/-- What has no separator in it belongs to the first segment. -/
theorem splitOn_append (h : sep ∉ xs) {s : List α} {ss : List (List α)}
    (hs : ys.splitOn sep = s :: ss) : (xs ++ ys).splitOn sep = (xs ++ s) :: ss := by
  induction xs with
  | nil => exact hs
  | cons x xs ih =>
    obtain ⟨hx, hxs⟩ := not_or.mp (mt List.mem_cons.mpr h)
    rw [List.cons_append, splitOn_of_ne (Ne.symm hx), ih hxs]
    rfl

/-- The front of the first segment is the front of the whole, and has no separator in it. -/
theorem of_splitOn_append {s : List α} {ss : List (List α)}
    (h : ys.splitOn sep = (xs ++ s) :: ss) :
    sep ∉ xs ∧ ∃ rest, ys = xs ++ rest ∧ rest.splitOn sep = s :: ss := by
  induction xs generalizing ys with
  | nil => exact ⟨List.not_mem_nil, ys, rfl, h⟩
  | cons x xs ih =>
    cases ys with
    | nil => cases h
    | cons y ys =>
      by_cases hy : y = sep
      · subst hy
        rw [splitOn_sep] at h
        cases h
      · obtain ⟨t, ts, ht⟩ := exists_splitOn sep ys
        rw [splitOn_of_ne hy, ht, List.modifyHead_cons] at h
        obtain ⟨hyx, hts⟩ := List.cons.inj h
        obtain ⟨rfl, rfl⟩ := List.cons.inj hyx
        obtain ⟨hm, rest, rfl, hr⟩ := ih (ht.trans (congrArg _ hts))
        exact ⟨by simpa [Ne.symm hy] using hm, rest, rfl, hr⟩

/-- Behind an empty first segment there is a separator, or nothing. -/
theorem of_splitOn_nil {ss : List (List α)} (h : xs.splitOn sep = [] :: ss) :
    xs = [] ∧ ss = [] ∨ ∃ rest, xs = sep :: rest ∧ rest.splitOn sep = ss := by
  cases xs with
  | nil => exact .inl ⟨rfl, (List.cons.inj h).2.symm⟩
  | cons x xs =>
    by_cases hx : x = sep
    · subst hx
      rw [splitOn_sep] at h
      exact .inr ⟨xs, rfl, (List.cons.inj h).2⟩
    · obtain ⟨t, ts, ht⟩ := exists_splitOn sep xs
      rw [splitOn_of_ne hx, ht] at h
      cases h

end Splitting

/-- A path that is spelled as a whole is spelled segment by segment. -/
theorem spelled_iff_segments (cs : List Char) (bs : List UInt8) :
    Spelled StandsInPath cs bs ↔
      List.Forall₂ (Spelled Stands) (cs.splitOn '/') (bs.splitOn separator) := by
  -- Induction on the glob. An empty glob stands for the empty path, which has one empty segment.
  induction cs generalizing bs with
  | nil =>
    rw [spelled_nil_iff]
    constructor
    · rintro rfl
      exact .cons .nil .nil
    · intro h
      obtain ⟨s, ss, hs⟩ := exists_splitOn separator bs
      rw [hs] at h
      obtain ⟨hempty, hrest⟩ := List.forall₂_cons.mp h
      rw [spelled_nil_iff.mp hempty, List.forall₂_nil_left_iff.mp hrest] at hs
      rcases of_splitOn_nil hs with ⟨rfl, -⟩ | ⟨rest, -, hr⟩
      · rfl
      · exact absurd hr (List.splitOnP_ne_nil _ _)
  | cons c cs ih =>
    obtain ⟨t, ts, ht⟩ := exists_splitOn '/' cs
    by_cases hc : c = '/'
    · -- A separator ends a segment of the glob, and one of the path.
      subst hc
      have hsep : ∀ {as}, StandsInPath '/' as ↔ as = [separator] := fun {as} =>
        (and_iff_left fun h => absurd rfl h).trans (stands_itself (by decide) (by decide))
      rw [splitOn_sep, spelled_cons_iff]
      -- The two separators meet, since no other piece of the glob may stand for one.
      constructor
      · rintro ⟨as, rest, rfl, has, hrest⟩
        rw [hsep.mp has, List.singleton_append, splitOn_sep]
        exact .cons .nil ((ih rest).mp hrest)
      · intro h
        obtain ⟨s, ss, hs⟩ := exists_splitOn separator bs
        rw [hs] at h
        obtain ⟨hempty, hss⟩ := List.forall₂_cons.mp h
        rw [spelled_nil_iff.mp hempty] at hs
        rcases of_splitOn_nil hs with ⟨-, rfl⟩ | ⟨rest, rfl, hr⟩
        · rw [ht] at hss
          cases hss
        · exact ⟨[separator], rest, rfl, hsep.mpr rfl, (ih rest).mpr (hr ▸ hss)⟩
    · -- Any other character belongs to the first segment of both.
      rw [splitOn_of_ne hc, ht, List.modifyHead_cons, spelled_cons_iff]
      -- What the character stands for has no separator in it, so it stays within the first segment.
      constructor
      · rintro ⟨as, rest, rfl, ⟨has, hm⟩, hrest⟩
        have hsegments := (ih rest).mp hrest
        obtain ⟨s, ss, hs⟩ := exists_splitOn separator rest
        rw [ht, hs] at hsegments
        obtain ⟨hs', hss⟩ := List.forall₂_cons.mp hsegments
        rw [splitOn_append (hm hc) hs]
        exact .cons (.cons has hs') hss
      · intro h
        obtain ⟨s, ss, hs⟩ := exists_splitOn separator bs
        rw [hs] at h
        obtain ⟨hfirst, hss⟩ := List.forall₂_cons.mp h
        obtain ⟨as, r, rfl, has, hr⟩ := spelled_cons_iff.mp hfirst
        obtain ⟨hm, rest, rfl, hrest⟩ := of_splitOn_append hs
        refine ⟨as, rest, rfl, ⟨has, fun _ => hm⟩, (ih rest).mpr ?_⟩
        rw [ht, hrest]
        exact .cons hr hss

end Glob

/-! ## Filters -/

open Glob in
/-- **Stars and question marks stay in their segments.** A glob whose only signs are question marks
and single stars makes a filter. The filter accepts a document if and only if the path of the
document has as many segments as the glob, and every one of them is spelled by the segment of the
glob in its place, where a star stands for any bytes and a question mark for one. The path is that
of the local file, decoded, or the path of the URI if it names no local file. -/
theorem Filter.accepts_segmentwise {source : String} (h : IsPlain source.toList) (d : Document) :
    ∃ f, Filter.ofParts none none (some source) = .ok f ∧
      (f.accepts d = true ↔ List.Forall₂ (Spelled Stands) (source.toList.splitOn '/')
        (d.uri.matchPath.splitOn separator)) := by
  have hg : Glob.ofText source =
      .ok ⟨source, Token.pattern (source.toList.map Token.ofChar)⟩ := by
    rw [Glob.ofText, Token.ofText_plain h]
    rfl
  refine ⟨⟨none, none, some _⟩, by rw [Filter.ofParts, hg], ?_⟩
  calc Filter.accepts _ d = true
      ↔ (Token.pattern (source.toList.map Token.ofChar)).accepts d.uri.matchPath = true := by
        simp [Filter.accepts, acceptsScheme, acceptsLanguage, acceptsPath, Glob.accepts]
    _ ↔ Spelled StandsInPath source.toList d.uri.matchPath := by
        rw [Pattern.accepts_iff_matches, matches_pattern]
    _ ↔ _ := spelled_iff_segments _ _

open Glob in
/-- A question mark is one byte of a character that has two, and a separator may be written with a
percent sign. -/
theorem Filter.accepts_segmentwise_decoded :
    let d : Document := { uri := ⟨"file".toList, none, "/%C3%A9%2F".toList, none, none⟩ }
    IsPlain "/??/".toList ∧ ∃ f, Filter.ofParts none none (some "/??/") = .ok f ∧
      f.accepts d = true ∧
      List.Forall₂ (Spelled Stands) [[], ['?', '?'], []] [[], [0xC3, 0xA9], []] := by
  intro d
  have htext : "/??/".toList = ['/', '?', '?', '/'] := by decide
  have hplain : IsPlain "/??/".toList := by
    rw [htext]
    exact ⟨by simp, by decide⟩
  obtain ⟨f, hf, haccepts⟩ := accepts_segmentwise hplain d
  have hname : Spelled Stands ['?', '?'] [0xC3, 0xA9] :=
    Spelled.cons (Stands.one 0xC3) (Spelled.cons (Stands.one 0xA9) Spelled.nil)
  have hsegments : List.Forall₂ (Spelled Stands) [[], ['?', '?'], []] [[], [0xC3, 0xA9], []] :=
    .cons .nil (.cons hname (.cons .nil .nil))
  refine ⟨hplain, f, hf, haccepts.mpr ?_, hsegments⟩
  have hglob : "/??/".toList.splitOn '/' = [[], ['?', '?'], []] := by rw [htext]; decide
  have hpath : d.uri.matchPath.splitOn separator = [[], [0xC3, 0xA9], []] := by decide +kernel
  rw [hglob, hpath]
  exact hsegments

end Parley

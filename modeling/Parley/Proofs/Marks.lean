import Parley.Glob.Pattern

/-!
# Patterns and marks

Whether a pattern describes a string is decided by marks: one before the first byte, one behind each
byte. A mark says that a match of what was read of the pattern so far may end there. Each part of
the pattern moves the marks on, and no way through the pattern is tried twice.

- `Pattern.Leads`: a match of a pattern leads from a marked place to another place.
- `Pattern.marked_after`: the marks behind a pattern are exactly the places that its matches lead
  to.
- `Pattern.accepts_iff_matches`: what is accepted is what the pattern describes.
-/

namespace Parley.Glob.Pattern

variable {p q : Pattern} {s : ByteSet} {bs : List UInt8} {ms : List Bool} {n : Nat}

/-! ## The number of marks -/

theorem length_advance (s : ByteSet) (bs : List UInt8) (ms : List Bool) :
    (advance s bs ms).length = min bs.length ms.length := by
  induction bs generalizing ms with
  | nil => simp [advance]
  | cons b bs ih =>
    cases ms with
    | nil => simp [advance]
    | cons m ms => simp [advance, ih, Nat.succ_min_succ]

theorem length_spread (s : ByteSet) (carry : Bool) (h : ms.length = bs.length + 1) :
    (spread s carry bs ms).length = bs.length + 1 := by
  induction bs generalizing ms carry with
  | nil =>
    cases ms with
    | nil => cases h
    | cons m ms => rfl
  | cons b bs ih =>
    cases ms with
    | nil => cases h
    | cons m ms =>
      rw [spread, List.length_cons, ih _ (Nat.succ.inj h)]
      rfl

/-- There is a mark for each place, behind a pattern as before it. -/
theorem length_after (p : Pattern) (h : ms.length = bs.length + 1) :
    (p.after bs ms).length = bs.length + 1 := by
  induction p generalizing ms with
  | nothing => exact h
  | one s => simp [after, length_advance, h]
  | many s => exact length_spread s false h
  | both p q ihp ihq => exact ihq (ihp h)
  | either p q ihp ihq => simp [after, ihp h, ihq h]

/-! ## Where the marks are -/

/-- A match of the pattern leads from a marked place to the place behind `n` bytes. -/
def Leads (p : Pattern) (bs : List UInt8) (ms : List Bool) (n : Nat) : Prop :=
  ∃ before part behind, bs = before ++ part ++ behind ∧ (before ++ part).length = n ∧
    ms[before.length]? = some true ∧ p.Matches part

/-- A byte moves a mark on if it is in the set. -/
theorem marked_advance (s : ByteSet) (bs : List UInt8) (ms : List Bool) (n : Nat) :
    (advance s bs ms)[n]? = some true ↔
      ∃ b, bs[n]? = some b ∧ ms[n]? = some true ∧ s.contains b = true := by
  induction bs generalizing ms n with
  | nil => simp [advance]
  | cons b bs ih =>
    cases ms with
    | nil => simp [advance]
    | cons m ms =>
      cases n with
      | zero => simp [advance]
      | succ n => simpa [advance] using ih ms n

theorem leads_one : Leads (.one s) bs ms n ↔ (after (.one s) bs ms)[n]? = some true := by
  constructor
  · rintro ⟨before, part, behind, rfl, rfl, hm, hp⟩
    cases hp with
    | one hb => simp [after, marked_advance, hm, hb]
  · intro h
    cases n with
    | zero => cases h
    | succ n =>
      obtain ⟨b, hb, hm, hs⟩ := (marked_advance s bs ms n).mp h
      obtain ⟨hn, rfl⟩ := List.getElem?_eq_some_iff.mp hb
      have hl : (bs.take n).length = n := List.length_take_of_le (Nat.le_of_lt hn)
      refine ⟨bs.take n, [bs[n]], bs.drop (n + 1), ?_, ?_, ?_, .one hs⟩
      · rw [List.append_assoc, List.singleton_append, ← List.drop_eq_getElem_cons,
          List.take_append_drop]
      · rw [List.length_append, hl, List.length_singleton]
      · rw [hl, hm]

/-- A run of bytes of the set leads from a marked place to the place behind `n` bytes, or from the
first place, if there is something to carry on from there. -/
def Runs (s : ByteSet) (carry : Bool) (bs : List UInt8) (ms : List Bool) (n : Nat) : Prop :=
  ∃ before run behind, bs = before ++ run ++ behind ∧ (before ++ run).length = n ∧
    (ms[before.length]? = some true ∨ before = [] ∧ carry = true) ∧
    ∀ b ∈ run, s.contains b = true

theorem runs_zero {carry m : Bool} : Runs s carry bs (m :: ms) 0 ↔ (m || carry) = true := by
  rw [Bool.or_eq_true]
  constructor
  · rintro ⟨before, run, behind, -, hl, hm, -⟩
    obtain ⟨rfl, rfl⟩ := List.append_eq_nil_iff.mp (List.eq_nil_of_length_eq_zero hl)
    simpa using hm
  · intro h
    exact ⟨[], [], bs, rfl, rfl, h.imp (congrArg some ·) (⟨rfl, ·⟩), by simp⟩

/-- Over one more byte a run starts where it started, or it was carried over that byte. -/
theorem runs_succ {carry m : Bool} {b : UInt8} :
    Runs s carry (b :: bs) (m :: ms) (n + 1) ↔
      Runs s ((m || carry) && s.contains b) bs ms n := by
  constructor
  · rintro ⟨before, run, behind, he, hl, hm, hr⟩
    -- The run begins further on, or here.
    cases before with
    | cons a before =>
      obtain ⟨rfl, rfl⟩ := List.cons.inj he
      exact ⟨before, run, behind, rfl, Nat.succ.inj hl, .inl (by simpa using hm), hr⟩
    | nil =>
      cases run with
      | nil => cases hl
      | cons a run =>
        obtain ⟨rfl, rfl⟩ := List.cons.inj he
        obtain ⟨hb, hr⟩ := List.forall_mem_cons.mp hr
        refine ⟨[], run, behind, rfl, Nat.succ.inj hl, .inr ⟨rfl, ?_⟩, hr⟩
        simpa [hb] using hm
  · rintro ⟨before, run, behind, rfl, rfl, hm | ⟨rfl, hc⟩, hr⟩
    · exact ⟨b :: before, run, behind, rfl, rfl, .inl hm, hr⟩
    · rw [Bool.and_eq_true, Bool.or_eq_true] at hc
      refine ⟨[], b :: run, behind, rfl, rfl, ?_, List.forall_mem_cons.mpr ⟨hc.2, hr⟩⟩
      exact hc.1.imp (congrArg some ·) (⟨rfl, ·⟩)

theorem marked_spread (s : ByteSet) (carry : Bool) (h : ms.length = bs.length + 1) (n : Nat) :
    Runs s carry bs ms n ↔ (spread s carry bs ms)[n]? = some true := by
  induction bs generalizing ms carry n with
  | nil =>
    obtain ⟨m, rfl⟩ := List.length_eq_one_iff.mp h
    cases n with
    | zero => simp [runs_zero, spread]
    | succ n =>
      refine iff_of_false ?_ (by simp [spread])
      rintro ⟨before, run, behind, he, hl, -⟩
      rw [(List.append_eq_nil_iff.mp he.symm).1] at hl
      cases hl
  | cons b bs ih =>
    obtain ⟨m, ms, rfl⟩ := List.exists_cons_of_length_eq_add_one h
    cases n with
    | zero => simp [runs_zero, spread]
    | succ n => rw [runs_succ, ih _ (Nat.succ.inj h), spread, List.getElem?_cons_succ]

theorem leads_many (h : ms.length = bs.length + 1) :
    Leads (.many s) bs ms n ↔ (after (.many s) bs ms)[n]? = some true := by
  rw [after, ← marked_spread s false h]
  constructor
  · rintro ⟨before, part, behind, hb, hn, hm, hp⟩
    cases hp with
    | many hp => exact ⟨before, part, behind, hb, hn, .inl hm, hp⟩
  · rintro ⟨before, part, behind, hb, hn, hm | ⟨-, hc⟩, hp⟩
    · exact ⟨before, part, behind, hb, hn, hm, .many hp⟩
    · cases hc

/-- A sequence leads on from where its first part leads to. -/
theorem leads_both (hp : ∀ k, Leads p bs ms k ↔ (p.after bs ms)[k]? = some true) :
    Leads (.both p q) bs ms n ↔ Leads q bs (p.after bs ms) n := by
  constructor
  · rintro ⟨before, part, behind, rfl, rfl, hm, hpart⟩
    cases hpart with
    | @both _ _ first second hfirst hsecond =>
      refine ⟨before ++ first, second, behind, by simp, by simp, (hp _).mp ?_, hsecond⟩
      exact ⟨before, first, second ++ behind, by simp, rfl, hm, hfirst⟩
  · rintro ⟨reached, second, behind, he, rfl, hreached, hsecond⟩
    obtain ⟨before, first, rest, he', hl, hm, hfirst⟩ := (hp _).mpr hreached
    rw [he, List.append_assoc] at he'
    obtain ⟨rfl, -⟩ := List.append_inj he' hl.symm
    exact ⟨before, first ++ second, behind, by simp [he], by simp, hm, .both hfirst hsecond⟩

theorem leads_either : Leads (.either p q) bs ms n ↔ Leads p bs ms n ∨ Leads q bs ms n := by
  constructor
  · rintro ⟨before, part, behind, hb, hn, hm, hpart⟩
    cases hpart with
    | left h => exact .inl ⟨before, part, behind, hb, hn, hm, h⟩
    | right h => exact .inr ⟨before, part, behind, hb, hn, hm, h⟩
  · rintro (⟨before, part, behind, hb, hn, hm, h⟩ | ⟨before, part, behind, hb, hn, hm, h⟩)
    · exact ⟨before, part, behind, hb, hn, hm, .left h⟩
    · exact ⟨before, part, behind, hb, hn, hm, .right h⟩

/-- The marks behind a pattern are the places that its matches lead to. -/
theorem marked_after (h : ms.length = bs.length + 1) (n : Nat) :
    Leads p bs ms n ↔ (p.after bs ms)[n]? = some true := by
  -- Induction on the pattern; the marks are those of the places where a match may end.
  induction p generalizing ms n with
  | nothing =>
    rw [after]
    constructor
    · rintro ⟨before, part, behind, -, rfl, hm, hpart⟩
      cases hpart
      simpa using hm
    · intro hm
      obtain ⟨hn, -⟩ := List.getElem?_eq_some_iff.mp hm
      have hl : (bs.take n).length = n := List.length_take_of_le (by omega)
      exact ⟨bs.take n, [], bs.drop n, by simp, by simpa using hl, by rw [hl, hm], .nothing⟩
  | one s => exact leads_one
  | many s => exact leads_many h
  | both p q ihp ihq => exact (leads_both (ihp h)).trans (ihq (length_after p h) n)
  -- Either one may have left the mark.
  | either p q ihp ihq =>
    rw [leads_either, ihp h n, ihq h n, after, List.getElem?_zipWith]
    have hp := length_after p h
    have hq := length_after q h
    by_cases hn : n < bs.length + 1
    · rw [List.getElem?_eq_getElem (hp ▸ hn), List.getElem?_eq_getElem (hq ▸ hn)]
      simp
    · rw [List.getElem?_eq_none (by omega), List.getElem?_eq_none (by omega)]
      simp

/-! ## The decision -/

/-- Exactly the strings that a pattern describes are accepted. -/
theorem accepts_iff_matches (p : Pattern) (bs : List UInt8) :
    p.accepts bs = true ↔ p.Matches bs := by
  have hl : (true :: bs.map fun _ => false).length = bs.length + 1 := by simp
  have hlast : p.accepts bs = true ↔
      (p.after bs (true :: bs.map fun _ => false))[bs.length]? = some true := by
    rw [accepts, beq_iff_eq, List.getLast?_eq_getElem?, length_after p hl, Nat.add_sub_cancel]
  rw [hlast, ← marked_after hl]
  constructor
  · rintro ⟨before, part, behind, he, hn, hm, hp⟩
    -- The only mark stands before the first byte, and nothing is left behind the match.
    obtain rfl : before = [] := by
      cases before with
      | nil => rfl
      | cons b before =>
        rw [List.length_cons, List.getElem?_cons_succ, List.getElem?_map,
          Option.map_eq_some_iff] at hm
        obtain ⟨-, -, hfalse⟩ := hm
        cases hfalse
    obtain rfl : behind = [] := by
      have hlength := congrArg List.length he
      rw [List.length_append, hn] at hlength
      exact List.eq_nil_of_length_eq_zero (by omega)
    rw [he, List.nil_append, List.append_nil]
    exact hp
  · intro hp
    exact ⟨[], bs, [], by simp, rfl, rfl, hp⟩

end Parley.Glob.Pattern

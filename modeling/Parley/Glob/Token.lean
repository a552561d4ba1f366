/-!
# The signs of a glob

A glob is a text in which some characters are signs: `?` for one character of a path segment, `*`
for any number of them, `**` for any number of segments, `[..]` for one character out of a class,
`\x7b..,..\x7d` for alternatives, and a backslash before a character that is meant as itself.

- `Token`: the signs.
- `Token.ofText`: reads a glob.
- `GlobError`: why a text is no glob.
-/

namespace Parley.Glob

/-- A sign of a glob. -/
inductive Token where
  | literal (c : Char)
  /-- One byte of a segment. -/
  | one
  /-- Any number of bytes of a segment. -/
  | run
  /-- Any number of whole segments at the front. -/
  | leading
  /-- Anything that follows a separator, at the end. -/
  | trailing
  /-- Any number of whole segments between two separators. -/
  | between
  /-- A character in one of the ranges, or in none of them. -/
  | oneOf (negated : Bool) (ranges : List (Char × Char))
  | group (branches : List (List Token))

/-- Why a text is no glob. -/
inductive GlobError where
  | unclosedClass
  | badRange (first last : Char)
  | unopenedGroup
  | unclosedGroup
  | danglingEscape
  deriving DecidableEq, Repr

/-- The wording, for a glob with the given text. -/
def GlobError.message (source : String) (e : GlobError) : String :=
  "error parsing glob '" ++ source ++ "': " ++
    match e with
    | .unclosedClass => "unclosed character class; missing ']'"
    | .badRange first last =>
      "invalid range; '" ++ first.toString ++ "' > '" ++ last.toString ++ "'"
    | .unopenedGroup =>
      "unopened alternate group; missing '\x7b' (maybe escape '\x7d' with '[\x7d]'?)"
    | .unclosedGroup =>
      "unclosed alternate group; missing '\x7d' (maybe escape '\x7b' with '[\x7b]'?)"
    | .danglingEscape => "dangling '\\'"

/-! ## Classes -/

/-- A class while it is read. -/
structure ClassDraft where
  /-- The ranges so far, last first. -/
  ranges : List (Char × Char)
  /-- Whether a dash was the last character, so that the next one may end a range. -/
  open_ : Bool
  /-- Whether no character was read yet. -/
  fresh : Bool

/-- Ends the last range with a character. -/
def ClassDraft.extend (d : ClassDraft) (c : Char) : Except GlobError ClassDraft :=
  match d.ranges with
  | [] => .ok { d with open_ := false, fresh := false }
  | (a, _) :: rs =>
    if c < a then .error (.badRange a c) else .ok ⟨(a, c) :: rs, false, false⟩

/-- Adds a character of its own. -/
def ClassDraft.add (d : ClassDraft) (c : Char) : ClassDraft :=
  ⟨(c, c) :: d.ranges, false, false⟩

/-- The ranges of a class that is complete. A dash at the end stands for itself. -/
def ClassDraft.close (d : ClassDraft) : List (Char × Char) :=
  if d.open_ then d.ranges.reverse ++ [('-', '-')] else d.ranges.reverse

/-- Reads a class up to its closing bracket: its ranges and the characters after it. A bracket or a
dash in the first place stands for itself. -/
def readClass (d : ClassDraft) : List Char → Except GlobError (List (Char × Char) × List Char)
  | [] => .error .unclosedClass
  | c :: cs =>
    if c = ']' then
      if d.fresh then readClass (d.add ']') cs else .ok (d.close, cs)
    else if c = '-' ∧ d.fresh then readClass (d.add '-') cs
    else if d.open_ then
      match d.extend c with
      | .error e => .error e
      | .ok d => readClass d cs
    else if c = '-' then readClass { d with open_ := true } cs
    else readClass (d.add c) cs

theorem readClass_length {d : ClassDraft} {cs rest : List Char} {ranges : List (Char × Char)}
    (h : readClass d cs = .ok (ranges, rest)) : rest.length < cs.length := by
  induction cs generalizing d with
  | nil => simp [readClass] at h
  | cons c cs ih =>
    rw [readClass] at h
    have step : ∀ {d : ClassDraft}, readClass d cs = .ok (ranges, rest) →
        rest.length < (c :: cs).length := fun h => Nat.lt_succ_of_lt (ih h)
    split at h
    · split at h
      · exact step h
      · simp only [Except.ok.injEq, Prod.mk.injEq] at h
        simp [h.2]
    · split at h
      · exact step h
      · split at h
        · split at h
          · simp at h
          · exact step h
        · split at h <;> exact step h

/-! ## Globs -/

/-- A group that is not closed: its branches so far, last first, and the signs before it, last
first. -/
structure OpenGroup where
  branches : List (List Token)
  around : List Token

/-- A glob while it is read: the signs of the branch under way, last first, and the open groups
around it, innermost first. -/
structure Draft where
  current : List Token
  groups : List OpenGroup

/-- Adds a sign. -/
def Draft.push (d : Draft) (t : Token) : Draft :=
  { d with current := t :: d.current }

/-- Opens a group. -/
def Draft.openGroup (d : Draft) : Draft :=
  ⟨[], ⟨[], d.current⟩ :: d.groups⟩

/-- Takes in a comma, which outside of all groups stands for itself. -/
def Draft.comma (d : Draft) : Draft :=
  match d.groups with
  | [] => d.push (.literal ',')
  | g :: gs => ⟨[], { g with branches := d.current.reverse :: g.branches } :: gs⟩

/-- Closes a group. -/
def Draft.closeGroup (d : Draft) : Except GlobError Draft :=
  match d.groups with
  | [] => .error .unopenedGroup
  | g :: gs =>
    .ok ⟨.group ((d.current.reverse :: g.branches).reverse) :: g.around, gs⟩

/-- Two stars that do not stand for whole segments count as two single ones. -/
def Draft.pushTwoRuns (d : Draft) : Draft :=
  (d.push .run).push .run

/-- What the two stars after `last` and before `next` do to a branch that has signs, if they stand
for whole segments: whether they end the branch. -/
def wholeSegments? (inGroup : Bool) (last next : Option Char) : Option Bool :=
  if last = some '/' ∨ (inGroup ∧ (last = some ',' ∨ last = some '\x7b')) then
    match next with
    | none => some true
    | some c =>
      if inGroup ∧ (c = ',' ∨ c = '\x7d') then some true
      else if c = '/' then some false
      else none
  else none

/-- Two stars for whole segments take the place of the sign before them, unless that stands for
whole segments itself. -/
def Draft.pushSegments (d : Draft) (ends : Bool) : Draft :=
  match d.current with
  | .leading :: _ | .trailing :: _ => d
  | ts => { d with current := (if ends then .trailing else .between) :: ts.drop 1 }

/-- Reads the characters of a glob that follow the character `last`. -/
def readTokens (last : Option Char) (d : Draft) (cs : List Char) : Except GlobError Draft :=
  match cs with
  | [] => .ok d
  | '?' :: cs => readTokens (some '?') (d.push .one) cs
  | '*' :: '*' :: cs =>
    if d.current.isEmpty then
      match cs with
      | [] => .ok (d.push .leading)
      | c :: cs =>
        if c = '/' then readTokens (some '/') (d.push .leading) cs
        else readTokens (some '*') d.pushTwoRuns (c :: cs)
    else
      match wholeSegments? (!d.groups.isEmpty) last cs.head? with
      | none => readTokens (some '*') d.pushTwoRuns cs
      | some true => readTokens (some '*') (d.pushSegments true) cs
      | some false => readTokens (some '/') (d.pushSegments false) cs.tail
  | '*' :: cs => readTokens (some '*') (d.push .run) cs
  | '[' :: cs =>
    let negated := cs.head? = some '!' ∨ cs.head? = some '^'
    match _h : readClass ⟨[], false, true⟩ (if negated then cs.tail else cs) with
    | .error e => .error e
    | .ok (ranges, rest) => readTokens (some ']') (d.push (.oneOf negated ranges)) rest
  | '\x7b' :: cs => readTokens (some '\x7b') d.openGroup cs
  | '\x7d' :: cs =>
    match d.closeGroup with
    | .error e => .error e
    | .ok d => readTokens (some '\x7d') d cs
  | ',' :: cs => readTokens (some ',') d.comma cs
  | ['\\'] => .error .danglingEscape
  | '\\' :: c :: cs => readTokens (some c) (d.push (.literal c)) cs
  | c :: cs => readTokens (some c) (d.push (.literal c)) cs
termination_by cs.length
decreasing_by
  all_goals try simp only [List.length_cons, List.length_tail]; omega
  all_goals
    have h := readClass_length _h
    split at h
    · have h' := List.length_tail (l := cs)
      simp only [List.length_cons]
      omega
    · simp only [List.length_cons]
      omega

/-- The signs of a glob. -/
def Token.ofText (cs : List Char) : Except GlobError (List Token) :=
  match readTokens none ⟨[], []⟩ cs with
  | .error e => .error e
  | .ok d => if d.groups.isEmpty then .ok d.current.reverse else .error .unclosedGroup

end Parley.Glob

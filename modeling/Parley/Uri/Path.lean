import Parley.Uri.Percent

/-!
# Paths

The segments of a path are taken one by one: a dot stands for the segment itself, two dots for the
one before it, and the dots may be written with percent signs.

- `pathSegments`: the finished segments of a path and its last one.
- `pathText`: the path they make up.
-/

namespace Parley.Uri

/-- A drive: a letter and a colon or a bar. -/
def isDrive (cs : List Char) : Bool :=
  match cs with
  | [c, d] => c.isAlpha && (d = ':' || d = '|')
  | _ => false

/-- The ways to write a dot. -/
def dots : List (List Char) :=
  [['.'], "%2e".toList, "%2E".toList]

/-- Whether a segment stands for the one before it. -/
def isUp (seg : List Char) : Bool :=
  dots.any fun a => dots.any fun b => seg == a ++ b

/-- Whether a segment stands for the path so far. -/
def isHere (seg : List Char) : Bool :=
  dots.contains seg

/-- Gives up the last segment, but no drive. -/
def dropSegment (segs : List (List Char)) : List (List Char) :=
  match segs.getLast? with
  | some s => if isDrive s then segs else segs.dropLast
  | none => segs

/-- The first segment of a local path names a drive with a colon. -/
def driveSegment (isFile : Bool) (done : List (List Char)) (seg : List Char) : List Char :=
  if isFile && done.isEmpty && isDrive seg then seg.take 1 ++ [':'] else seg

/-- The end of a segment, and whether a separator follows it. -/
def takeSegment (special : Bool) : List Char → List Char × Option (List Char)
  | [] => ([], none)
  | c :: cs =>
    if c = '/' ∨ (special ∧ c = '\\') then ([], some cs)
    else
      let (seg, rest) := takeSegment special cs
      (c :: seg, rest)

theorem takeSegment_length {special : Bool} {cs seg rest : List Char}
    (h : takeSegment special cs = (seg, some rest)) : rest.length < cs.length := by
  induction cs generalizing seg with
  | nil => simp [takeSegment] at h
  | cons c cs ih =>
    rw [takeSegment] at h
    split at h
    · simp only [Prod.mk.injEq, Option.some.injEq] at h
      simp [h.2]
    · have := @ih (takeSegment special cs).1
        (Prod.ext rfl (congrArg Prod.snd h : (takeSegment special cs).2 = some rest))
      exact Nat.lt_succ_of_lt this

/-- A path while it is read: its finished segments and what follows the last separator. `drive`
says whether its first segment is a drive. -/
structure Segments where
  done : List (List Char)
  last : List Char
  drive : Bool
  deriving DecidableEq, Repr

/-- Takes in the segments of a path, after those in `s`. -/
def readSegments (isFile special : Bool) (s : Segments) (cs : List Char) : Segments :=
  match _h : takeSegment special cs with
  | (raw, rest) =>
    let seg := percentEncode inPath raw
    let drive := s.drive || (isFile && s.done.isEmpty && isDrive seg)
    let s :=
      if isUp seg then { s with done := dropSegment s.done, last := [] }
      else if isHere seg then { s with last := [] }
      else
        let seg := driveSegment isFile s.done seg
        if rest.isSome then ⟨s.done ++ [seg], [], drive⟩ else ⟨s.done, seg, drive⟩
    match rest with
    | none => s
    | some rest => readSegments isFile special s rest
termination_by cs.length
decreasing_by exact takeSegment_length _h

/-- The path of segments, from its first slash on. -/
def Segments.text (s : Segments) : List Char :=
  '/' :: s.done.flatMap (· ++ ['/']) ++ s.last

/-- The segments of a path whose first slash has been read. -/
def segmentsOf (isFile special : Bool) (cs : List Char) : Segments :=
  readSegments isFile special ⟨[], [], false⟩ cs

/-- A local path starts with one slash only. -/
def oneSlash (path : List Char) : List Char :=
  '/' :: path.dropWhile (· = '/')

end Parley.Uri

import Parley.Glob.Pattern
import Parley.Glob.Token
import Parley.Text.Utf8

/-!
# Globs

- `Glob.ofText`: the glob that a text is.
- `Glob.accepts`: whether a path matches it. Globs see the bytes of a path, so `?` and a class
  stand for one byte of a character that has several.
-/

namespace Parley

namespace Glob

/-- The byte between the segments of a path. -/
def separator : UInt8 := 0x2F

/-- One byte of a segment. -/
def inSegment : ByteSet := .allBut separator

/-- A pattern after an optional one. -/
def Pattern.andThen (p : Pattern) : Option Pattern → Pattern
  | none => p
  | some q => .both p q

/-- The pattern of one string. -/
def Pattern.exactly : List UInt8 → Pattern
  | [] => .nothing
  | [b] => .one (.single b)
  | b :: bs => .both (.one (.single b)) (Pattern.exactly bs)

/-- The byte ranges of a character range: the bytes of its two ends, and every byte from the last
one of the first end to the first one of the last end. -/
def byteRanges (r : Char × Char) : List (UInt8 × UInt8) :=
  let a := String.utf8EncodeChar r.1
  let b := String.utf8EncodeChar r.2
  let same (bs : List UInt8) := bs.map fun x => (x, x)
  if r.1 = r.2 then same a
  else same a.dropLast ++ (a.getLastD 0, b.headD 0) :: same b.tail

/-- A path separator. -/
def slash : Pattern := .one (.single separator)

/-- Any bytes. -/
def anything : Pattern := .many .full

mutual

/-- The pattern of a sign; none if the sign has no effect. -/
def Token.pattern? : Token → Option Pattern
  | .literal c => some (.exactly (String.utf8EncodeChar c))
  | .one => some (.one inSegment)
  | .run => some (.many inSegment)
  | .leading => some (.either (.either slash .nothing) (.both anything slash))
  | .trailing => some (.both slash anything)
  | .between => some (.either slash (.both slash (.both anything slash)))
  | .oneOf negated ranges => some (.one ⟨negated, ranges.flatMap byteRanges⟩)
  | .group branches => Token.choice? branches

/-- The pattern of a sequence of signs; none if none of them has an effect. -/
def Token.sequence? : List Token → Option Pattern
  | [] => none
  | t :: ts =>
    match t.pattern? with
    | none => Token.sequence? ts
    | some p => some (p.andThen (Token.sequence? ts))

/-- The pattern of alternatives. Those without an effect do not count. -/
def Token.choice? : List (List Token) → Option Pattern
  | [] => none
  | ts :: rest =>
    match Token.sequence? ts, Token.choice? rest with
    | none, q => q
    | some p, none => some p
    | some p, some q => some (.either p q)

end

/-- The pattern of a glob. Two stars alone match everything. -/
def Token.pattern : List Token → Pattern
  | [.leading] => anything
  | ts => (Token.sequence? ts).getD .nothing

end Glob

/-- A glob, which remembers its text. -/
structure Glob where
  source : String
  pattern : Glob.Pattern
  deriving DecidableEq, Repr

namespace Glob

/-- The glob that a text is. -/
def ofText (source : String) : Except GlobError Glob :=
  (Token.ofText source.toList).map fun ts => ⟨source, Token.pattern ts⟩

/-- Whether a path matches. -/
def accepts (g : Glob) (path : List UInt8) : Bool :=
  g.pattern.accepts path

end Glob

end Parley

import Parley.Frame.Header

/-!
# Reading frames while bytes arrive

A stream comes in pieces, and a piece may end anywhere: inside a name, between the two bytes of a
line's end, inside a character. An `Intake` is what has to be remembered of the frame under way.

There is taken to be room for every body that the limit allows, so this stands for `readFrame` with
limits up to `maxBuffer`, the largest that a buffer can have.

- `Intake.push`: takes one byte. A frame is given out with its last byte, an error with the byte
  that makes it certain.
- `Intake.feed`: takes the bytes of a piece.
- `Intake.finish`: the end of the stream.
-/

namespace Parley.Frame

/-- What is known of the frame under way. The bytes of a part that is not complete are kept last
first. -/
inductive Intake where
  /-- Inside the header block: the line so far, the bytes that it may still have, whether a line
  came before, and the length that was announced. -/
  | header (line : List UInt8) (room : Nat) (seen : Bool) (length : Option Nat)
  /-- Inside the body: the body so far, and how many bytes are missing after the next one. -/
  | body (held : List UInt8) (missing : Nat)
  deriving DecidableEq, Repr

namespace Intake

/-- Between two frames. -/
def start : Intake := .header [] maxHeaderLine false none

/-- What a byte completes. -/
inductive Step where
  /-- Nothing yet. -/
  | more (s : Intake)
  /-- A frame with this payload as its body. -/
  | frame (payload : List UInt8)
  | failed (e : ReadError)
  deriving DecidableEq, Repr

/-- Takes in a whole header line. -/
def endLine (limit : Nat) (line : List UInt8) (length : Option Nat) : Step :=
  match HeaderLine.ofBytes line with
  | .error e => .failed e
  | .ok .last =>
    match bodyLength limit length with
    | .error e => .failed e
    | .ok 0 => .frame []
    | .ok (n + 1) => .more (.body [] n)
  | .ok (.length n) => .more (.header [] maxHeaderLine true (some n))
  | .ok .other => .more (.header [] maxHeaderLine true length)

/-- Takes one byte. -/
def push (limit : Nat) (b : UInt8) : Intake → Step
  | .header line room seen length =>
    if b = lineFeed ∨ room ≤ 1 then endLine limit (line.reverse ++ [b]) length
    else .more (.header (b :: line) (room - 1) seen length)
  | .body held 0 => .frame (held.reverse ++ [b])
  | .body held (missing + 1) => .more (.body (b :: held) missing)

/-- Takes the bytes of a piece: the bodies that it completes, and then what is known of the next
frame or the error, after which no byte is looked at. -/
def feed (limit : Nat) : Intake → List UInt8 → List (List UInt8) × Except ReadError Intake
  | s, [] => ([], .ok s)
  | s, b :: bs =>
    match s.push limit b with
    | .more s => feed limit s bs
    | .frame payload =>
      let (bodies, r) := feed limit start bs
      (payload :: bodies, r)
    | .failed e => ([], .error e)

/-- The end of the stream: a line without an end counts as a line, and it may complete a frame
without a body. None between two frames. -/
def finish (limit : Nat) : Intake → Except ReadError (Option (List UInt8))
  | .header [] _ seen _ => if seen then .error .endInFrame else .ok none
  | .header (b :: line) _ _ length =>
    match endLine limit (line.reverse ++ [b]) length with
    | .failed e => .error e
    | .frame payload => .ok (some payload)
    | .more _ => .error .endInFrame
  | .body _ _ => .error .endInFrame

end Intake

end Parley.Frame

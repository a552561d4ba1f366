import Parley.Text.Blank
import Parley.Text.Quoted
import Parley.Uri.Domain
import Parley.Uri.Percent

/-!
# Hosts

- `Host`: a name or a numeric address.
- `Host.ofSpecial`: the host of a scheme that names machines. Its last label decides: if that is a
  number, all of it has to be an address.
- `Host.ofOpaque`: the host of any other scheme, which is kept as it is.
- `Host.text`: its normal form.
-/

namespace Parley

/-- Why a text is no URI. -/
inductive UriError where
  | relative
  | emptyHost
  | badName
  | badPort
  | badIpv4
  | badIpv6
  | badHostCharacter
  deriving DecidableEq, Repr

/-- The wording. -/
def UriError.message : UriError → String
  | .relative => "relative URL without a base"
  | .emptyHost => "empty host"
  | .badName => "invalid international domain name"
  | .badPort => "invalid port number"
  | .badIpv4 => "invalid IPv4 address"
  | .badIpv6 => "invalid IPv6 address"
  | .badHostCharacter => "invalid domain character"

namespace Uri

/-- The host of a URI. -/
inductive Host where
  | name (cs : List Char)
  /-- An address of 32 bits. -/
  | ipv4 (address : Nat)
  /-- An address of eight pieces of 16 bits. -/
  | ipv6 (pieces : List Nat)
  deriving DecidableEq, Repr

/-! ## Addresses of 32 bits -/

/-- The value of a digit in a base up to 16. -/
def digitValue? (base : Nat) (c : Char) : Option Nat :=
  let n := c.toNat
  let v :=
    if 0x30 ≤ n ∧ n ≤ 0x39 then some (n - 0x30)
    else if 0x41 ≤ n ∧ n ≤ 0x46 then some (n - 0x41 + 10)
    else if 0x61 ≤ n ∧ n ≤ 0x66 then some (n - 0x61 + 10)
    else none
  v.filter (· < base)

/-- The value of a text of digits; none if a character is no digit. -/
def digitsValue? (base : Nat) : Nat → List Char → Option Nat
  | n, [] => some n
  | n, c :: cs =>
    match digitValue? base c with
    | none => none
    | some d => digitsValue? base (n * base + d) cs

/-- The value of a label that is a number, in base 16 after `0x` and in base 8 after another zero.
A label without digits is no number, but nothing after the mark of a base is zero. -/
def labelValue? : List Char → Option Nat
  | [] => none
  | '0' :: 'x' :: cs | '0' :: 'X' :: cs => digitsValue? 16 0 cs
  | '0' :: c :: cs => digitsValue? 8 0 (c :: cs)
  | cs => digitsValue? 10 0 cs

/-- The labels of a name, without the empty one behind a dot at the end. -/
def labels (cs : List Char) : List (List Char) :=
  let parts := splitAt '.' cs
  if parts.getLast? = some [] then parts.dropLast else parts

/-- Whether the last label of a name is a number. -/
def endsInNumber (cs : List Char) : Bool :=
  match (labels cs).getLast? with
  | none => false
  | some l => (!l.isEmpty && l.all Char.isDigit) || (labelValue? l).isSome

/-- The address that numbers stand for: each but the last is one byte, and the last fills the
rest. -/
def ipv4OfNumbers : Nat → List Nat → Option Nat
  | _, [] => none
  | place, [n] => if n < 1 <<< (8 * (place + 1)) then some n else none
  | 0, _ :: _ => none
  | place + 1, n :: ns =>
    if n < 256 then (ipv4OfNumbers place ns).map (n <<< (8 * (place + 1)) + ·) else none

/-- The address that a name ending in a number stands for. -/
def ipv4OfText (cs : List Char) : Except UriError Host :=
  match (labels cs).mapM labelValue? with
  | none => .error .badIpv4
  | some ns =>
    match ipv4OfNumbers 3 ns with
    | none => .error .badIpv4
    | some a => .ok (.ipv4 a)

/-! ## Addresses of 128 bits -/

/-- The value of up to `count` hexadecimal digits, and what follows them. -/
def takeHex : Nat → Nat → List Char → Nat × List Char
  | 0, v, cs => (v, cs)
  | _ + 1, v, [] => (v, [])
  | count + 1, v, c :: cs =>
    match digitValue? 16 c with
    | some d => takeHex count (v * 16 + d) cs
    | none => (v, c :: cs)

/-- One of the four decimal numbers at the end of an address: at most 255, without leading
zeros. -/
def takeByte (cs : List Char) : Option (Nat × List Char) :=
  let digits := cs.takeWhile Char.isDigit
  match digitsValue? 10 0 digits with
  | none => none
  | some v =>
    if digits.isEmpty ∨ 255 < v ∨ (1 < digits.length ∧ digits.head? = some '0') then none
    else some (v, cs.dropWhile Char.isDigit)

/-- The two pieces of four decimal numbers, which have to be all that is left. -/
def dottedPieces (cs : List Char) : Option (List Nat) := do
  let dot : List Char → Option (List Char)
    | '.' :: cs => some cs
    | _ => none
  let (a, cs) ← takeByte cs
  let (b, cs) ← takeByte (← dot cs)
  let (c, cs) ← takeByte (← dot cs)
  let (d, cs) ← takeByte (← dot cs)
  if cs.isEmpty then some [a * 256 + b, c * 256 + d] else none

/-- The pieces of an address before and after its gap. `room` is the number of pieces that may
still come, and `gap` holds the pieces before the gap once it was met; `acc` holds those that were
read since, last first. -/
def readPieces (room : Nat) (gap : Option (List Nat)) (acc : List Nat) (cs : List Char) :
    Option (Option (List Nat) × List Nat) :=
  match room, cs with
  | _, [] => some (gap, acc.reverse)
  | 0, _ => none
  | room + 1, ':' :: cs =>
    if gap.isSome then none else readPieces room (some acc.reverse) [] cs
  | room + 1, c :: cs =>
    let (v, rest) := takeHex 4 0 (c :: cs)
    match rest with
    | [] => some (gap, (v :: acc).reverse)
    | '.' :: _ =>
      if (digitValue? 16 c).isNone ∨ room + 1 < 2 then none
      else
        match dottedPieces (c :: cs) with
        | some ps => some (gap, acc.reverse ++ ps)
        | none => none
    | ':' :: [] => none
    | ':' :: d :: rest => readPieces room gap (v :: acc) (d :: rest)
    | _ => none

/-- The address that a text between brackets stands for. -/
def ipv6OfText (cs : List Char) : Except UriError Host :=
  let pieces := match cs with
    | ':' :: ':' :: cs => readPieces 7 (some []) [] cs
    | ':' :: _ => none
    | [] | [_] => none
    | cs => readPieces 8 none [] cs
  match pieces with
  | none => .error .badIpv6
  | some (none, ps) => if ps.length = 8 then .ok (.ipv6 ps) else .error .badIpv6
  | some (some front, back) =>
    .ok (.ipv6 (front ++ List.replicate (8 - front.length - back.length) 0 ++ back))

/-! ## Names -/

/-- The characters that no name holds. -/
def isForbidden (c : Char) : Bool :=
  isControl c ||
    [' ', '%', '#', '/', ':', '<', '>', '?', '@', '[', '\\', ']', '^', '|'].contains c

/-- The address in brackets that a host is, if it starts with one. -/
def bracketed? (cs : List Char) : Option (Except UriError Host) :=
  match cs with
  | '[' :: inner =>
    if cs.getLast? = some ']' then some (ipv6OfText inner.dropLast) else some (.error .badIpv6)
  | _ => none

/-- The host of a scheme that names machines. -/
def Host.ofSpecial (cs : List Char) : Except UriError Host :=
  match bracketed? cs with
  | some r => r
  | none =>
    match Utf8.decode (percentDecode (Utf8.encodeChars cs)) with
    | .error _ => .error .badName
    | .ok decoded =>
      match asciiName? decoded with
      | none => .error .badName
      | some ascii =>
        if ascii.any isForbidden then .error .badName
        else if ascii.isEmpty then .error .emptyHost
        else if endsInNumber ascii then ipv4OfText ascii
        else .ok (.name ascii)

/-- The host of any other scheme. -/
def Host.ofOpaque (cs : List Char) : Except UriError Host :=
  match bracketed? cs with
  | some r => r
  | none =>
    if cs.any fun c =>
        ['\x00', '\t', '\n', '\r', ' ', '#', '/', ':', '<', '>', '?', '@', '[', '\\', ']', '^',
          '|'].contains c then
      .error .badHostCharacter
    else .ok (.name (percentEncode isControl cs))

/-! ## Normal forms -/

/-- The four bytes of an address in decimal. -/
def ipv4Text (a : Nat) : List Char :=
  let byte (i : Nat) := Nat.toDigits 10 (a >>> (8 * i) % 256)
  byte 3 ++ '.' :: byte 2 ++ '.' :: byte 1 ++ '.' :: byte 0

/-- The length of the run of zeros at the front. -/
def zeroRun (ps : List Nat) : Nat :=
  (ps.takeWhile (· = 0)).length

/-- The place and the length of the first of the longest runs of zeros. -/
def longestZeros : Nat → List Nat → Nat × Nat
  | place, [] => (place, 0)
  | place, p :: ps =>
    let here := zeroRun (p :: ps)
    let later := longestZeros (place + 1) ps
    if later.2 ≤ here then (place, here) else later

/-- Pieces with colons between them. -/
def joinPieces : List Nat → List Char
  | [] => []
  | [p] => Text.hexDigits p
  | p :: ps => Text.hexDigits p ++ ':' :: joinPieces ps

/-- The pieces of an address, with two colons for the first of the longest runs of zeros, if that
has two at least. -/
def ipv6Text (ps : List Nat) : List Char :=
  let (place, count) := longestZeros 0 ps
  if count < 2 then joinPieces ps
  else joinPieces (ps.take place) ++ ':' :: ':' :: joinPieces (ps.drop (place + count))

/-- The normal form of a host. -/
def Host.text : Host → List Char
  | .name cs => cs
  | .ipv4 a => ipv4Text a
  | .ipv6 ps => '[' :: ipv6Text ps ++ [']']

end Uri

end Parley

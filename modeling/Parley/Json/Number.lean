import Parley.Decimal.Shortest

/-!
# JSON numbers

An integer within 64 bits, signed or unsigned, stays an integer; every other number is a double.

- `Whole`, `Number`: the values.
- `Number.ofParts`: the double of a decimal, by one multiplication or division in doubles.
- `Number.render`: the text of a number.
-/

namespace Parley.Json

/-- An integer that fits 64 bits, signed or unsigned. -/
structure Whole where
  /-- The integer. -/
  val : Int
  lower : -0x8000000000000000 ≤ val
  upper : val < 0x10000000000000000
  deriving DecidableEq, Repr

/-- The whole number of an integer in range. -/
def Whole.ofInt? (n : Int) : Option Whole :=
  if h : -0x8000000000000000 ≤ n ∧ n < 0x10000000000000000 then some ⟨n, h.1, h.2⟩ else none

@[simp] theorem Whole.ofInt?_val (w : Whole) : Whole.ofInt? w.val = some w := by
  exact dif_pos ⟨w.lower, w.upper⟩

/-- A JSON number. -/
inductive Number where
  /-- An integer in range. -/
  | whole (n : Whole)
  /-- Any other number. -/
  | real (x : Float)
  deriving DecidableEq, Repr

/-- The integer that a number is, if it is one in range. -/
def Number.toInt? : Number → Option Int
  | .whole n => some n.val
  | .real _ => none

/-! ## Reading -/

/-- The powers of ten among the doubles. -/
def powerOfTen (e : Nat) : Float :=
  Float.ofScientific 1 false e

/-- Divides by `10^308` until the exponent is in the range of the doubles; each step halves
nothing but the exponent's excess, so `fuel` bounds the steps. -/
def scaleDown : Nat → Float → Nat → Float
  | 0, f, _ => f
  | fuel + 1, f, e =>
    if e ≤ 308 then f / powerOfTen e
    else if f == 0 then f
    else scaleDown fuel (f / powerOfTen 308) (e - 308)

/-- The double of `significand · 10^exponent`; none if it is too large. The significand is rounded
to a double first, and one multiplication or division follows. -/
def Number.magnitude (significand : UInt64) (exponent : Int) : Option Float :=
  let f := significand.toFloat
  if 0 ≤ exponent then
    if exponent ≤ 308 then
      let g := f * powerOfTen exponent.toNat
      if g.isInf then none else some g
    else if f == 0 then some f else none
  else some (scaleDown (exponent.natAbs + 1) f exponent.natAbs)

/-- The double of a signed decimal; none if it is too large. -/
def Number.ofParts (positive : Bool) (significand : UInt64) (exponent : Int) : Option Float :=
  (Number.magnitude significand exponent).map fun f => if positive then f else -f

/-! ## Writing -/

/-- The text of an exponent: a sign always, and no padding. -/
def renderExponent (e : Int) : List Char :=
  (if e < 0 then '-' else '+') :: Nat.toDigits 10 e.natAbs

/-- The text of a decimal magnitude. It is positional from `0.00001` up to below `10^16`, always
with a point, and otherwise one digit before the point and an exponent. -/
def renderDecimal (d : Decimal.Magnitude) : List Char :=
  let ds := Nat.toDigits 10 d.digits
  let point := ds.length + d.exponent
  if 0 ≤ d.exponent ∧ point ≤ 16 then
    ds ++ List.replicate d.exponent.toNat '0' ++ ['.', '0']
  else if 0 < point ∧ point ≤ 16 then
    ds.take point.toNat ++ '.' :: ds.drop point.toNat
  else if -5 < point ∧ point ≤ 0 then
    ['0', '.'] ++ List.replicate (-point).toNat '0' ++ ds
  else
    match ds with
    | [c] => c :: 'e' :: renderExponent (point - 1)
    | ds => ds.take 1 ++ '.' :: ds.drop 1 ++ 'e' :: renderExponent (point - 1)

/-- The text of a finite double. -/
def renderReal (x : Float) : List Char :=
  let magnitude := if x == 0 then ['0', '.', '0'] else renderDecimal (Decimal.shortest x)
  if Decimal.isNegative x then '-' :: magnitude else magnitude

/-- The text of an integer. -/
def renderInt (n : Int) : List Char :=
  if n < 0 then '-' :: Nat.toDigits 10 n.natAbs else Nat.toDigits 10 n.natAbs

/-- The text of a number. -/
def Number.render : Number → List Char
  | .whole n => renderInt n.val
  | .real x => renderReal x

end Parley.Json

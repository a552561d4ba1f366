/-!
# The shortest decimal that reads back

A finite double is `m · 2^q`. Every real number of an interval around it rounds to it; of the
decimals in that interval the shortest is wanted, and of the shortest the nearest.

- `Binary.ofFloat`: the magnitude of a double as `m · 2^q`, with its interval.
- `shortest`: the two neighbours of the value on ever finer grids of powers of ten are tested; the
  first grid with a hit wins.
-/

namespace Parley.Decimal

/-- A positive magnitude `value / 4 · 2^q`, and the interval of the magnitudes that round to it, in
the same unit. -/
structure Binary where
  /-- Four times the significand. -/
  value : Nat
  /-- The lower end of the interval. -/
  lower : Nat
  /-- The upper end of the interval. -/
  upper : Nat
  /-- Whether the two ends belong to the interval. -/
  closed : Bool
  /-- The binary exponent. -/
  exponent : Int
  deriving Repr

/-- The magnitude of a finite double. The gap below a power of two is half as wide as the gap
above it; a tie rounds to the even significand. -/
def Binary.ofFloat (x : Float) : Binary :=
  let bits : Nat := x.toBits.toNat
  let fraction : Nat := bits % 0x10000000000000
  let biased : Nat := bits >>> 52 % 0x800
  let m : Nat := if biased = 0 then fraction else fraction + 0x10000000000000
  { value := 4 * m
    lower := if fraction = 0 ∧ 1 < biased then 4 * m - 1 else 4 * m - 2
    upper := 4 * m + 2
    closed := m % 2 == 0
    exponent := if biased = 0 then -1076 else (biased : Int) - 1077 }

/-- Whether a double is negative, the negative zero included. -/
def isNegative (x : Float) : Bool :=
  0x8000000000000000 ≤ x.toBits.toNat

/-- A decimal magnitude `digits · 10^exponent`. -/
structure Magnitude where
  /-- The significand. -/
  digits : Nat
  /-- The decimal exponent. -/
  exponent : Int
  deriving DecidableEq, Repr

/-- The factors `(up, down)` with `2^q / 10^k = up / down`. -/
def scale (q k : Int) : Nat × Nat :=
  (Nat.pow 2 q.toNat * Nat.pow 10 (-k).toNat, Nat.pow 2 (-q).toNat * Nat.pow 10 k.toNat)

/-- The least `j ≤ fuel` for which `n · 10^j` reaches `d`. -/
def stepsUp : Nat → Nat → Nat → Nat
  | 0, _, _ => 0
  | fuel + 1, n, d => if d ≤ n then 0 else stepsUp fuel (10 * n) d + 1

/-- The exponent of the leading decimal digit of `n / d`. -/
def leading (n d : Nat) : Int :=
  if d ≤ n then (Nat.toDigits 10 (n / d)).length - 1
  else -(stepsUp 400 n d : Int)

/-- Whether `c · 10^k` rounds to `b`. -/
def Binary.admits (b : Binary) (c : Nat) (k : Int) : Bool :=
  let (up, down) := scale b.exponent k
  if b.closed then b.lower * up ≤ c * down && c * down ≤ b.upper * up
  else b.lower * up < c * down && c * down < b.upper * up

/-- The neighbour of `b` on the grid of the multiples of `10^k` that rounds to `b`: the nearer one
if both do, and the even one if they are equally near. -/
def Binary.neighbour (b : Binary) (k : Int) : Option Nat :=
  let (up, down) := scale b.exponent k
  let n := b.value * up
  let c := n / down
  let twice := 2 * (n % down)
  match b.admits c k, b.admits (c + 1) k with
  | false, false => none
  | true, false => some c
  | false, true => some (c + 1)
  | true, true =>
    if twice < down then some c
    else if down < twice then some (c + 1)
    else if c % 2 = 0 then some c else some (c + 1)

/-- The first hit on the last `tries` of the grids `10^(lead + 1)`, `10^lead`, …,
`10^(lead - 16)`. The first of them can only hit the power of ten above the value, the last has 17
significant digits and always hits. -/
def search (b : Binary) (lead : Int) : Nat → Magnitude
  | 0 => ⟨0, 0⟩
  | tries + 1 =>
    let k := lead - 16 + tries
    match b.neighbour k with
    | some c => ⟨c, k⟩
    | none => search b lead tries

/-- The shortest decimal that reads back as the magnitude of a finite double other than zero. -/
def shortest (x : Float) : Magnitude :=
  let b := Binary.ofFloat x
  let (up, down) := scale b.exponent 0
  search b (leading (b.value * up) down) 18

end Parley.Decimal

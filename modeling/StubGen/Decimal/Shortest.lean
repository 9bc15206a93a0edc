/-!
# The shortest decimal of a floating-point number

A finite positive number is `m * 2 ^ q`. The reals that round to it form an interval, closed when
`m` is even. Of all decimals in that interval the one with the fewest digits is wanted, and of
those the nearest to the number. On the grid of decimals with a given number of digits the two
neighbours of the number are the only candidates: when any point of the grid lies in the
interval, one of them does. All arithmetic is on natural numbers.
-/

namespace StubGen.Decimal

/-- A positive decimal: `digits` is its digits as a number, scaled by a power of ten. -/
structure Scaled where
  digits : Nat
  exponent : Int
deriving DecidableEq, Repr

/-- A positive binary number `significand * 2 ^ exponent`. The one below it is half as far away
as the one above when `narrowBelow` holds. -/
structure Binary where
  significand : Nat
  exponent : Int
  narrowBelow : Bool

/-- The parts of a finite positive number, from its bits. -/
def Binary.ofBits (bits : UInt64) : Binary :=
  let fraction : Nat := bits.toNat % Nat.pow 2 52
  let biased : Nat := bits.toNat / Nat.pow 2 52 % Nat.pow 2 11
  if biased = 0 then { significand := fraction, exponent := -1074, narrowBelow := false }
  else
    { significand := Nat.pow 2 52 + fraction
      exponent := (biased : Int) - 1075
      narrowBelow := fraction = 0 && biased > 1 }

/-- A grid of decimals around a number: the number is `value / unit` steps up, and so are the
ends of the interval that rounds to it, `low` and `high`. -/
structure Grid where
  value : Nat
  low : Nat
  high : Nat
  unit : Nat
  closed : Bool

/-- The grid of multiples of `10 ^ exponent` around a number. Four times the number and its
interval's ends are whole multiples of its last binary place. -/
def Binary.grid (b : Binary) (exponent : Int) : Grid :=
  let scale : Nat := Nat.pow 2 b.exponent.toNat * Nat.pow 10 (-exponent).toNat
  { value := 4 * b.significand * scale
    low := (4 * b.significand - if b.narrowBelow then 1 else 2) * scale
    high := (4 * b.significand + 2) * scale
    unit := 4 * Nat.pow 2 (-b.exponent).toNat * Nat.pow 10 exponent.toNat
    closed := b.significand % 2 = 0 }

/-- Whether a multiple of the grid's unit lies in the interval. -/
def Grid.holds (g : Grid) (n : Nat) : Bool :=
  if g.closed then g.low ≤ n * g.unit && n * g.unit ≤ g.high
  else g.low < n * g.unit && n * g.unit < g.high

/-- The nearest point of the grid in the interval, if there is one; of two at the same distance
the even one. -/
def Grid.nearest? (g : Grid) : Option Nat :=
  let below := g.value / g.unit
  let above := below + 1
  match g.holds below && below ≠ 0, g.holds above with
  | true, true =>
    let down := g.value - below * g.unit
    let up := above * g.unit - g.value
    if down < up then some below
    else if up < down then some above
    else if below % 2 = 0 then some below else some above
  | true, false => some below
  | false, true => some above
  | false, false => none

/-- The place of the leading decimal digit: the largest power of ten not above the number,
searched downwards from `start`. -/
def Binary.leadingPlace (b : Binary) : Nat → Int → Int
  | 0, start => start
  | steps + 1, start =>
    let g := b.grid start
    if g.unit ≤ g.value then start else b.leadingPlace steps (start - 1)

/-- A first guess at the leading place, at most two too high. -/
def Binary.leadingGuess (b : Binary) : Int :=
  ((Nat.log2 b.significand : Int) + b.exponent + 1) * 30103 / 100000 + 1

/-- The first grid with a point in the interval, from `digits` digits on. -/
def Binary.shortestFrom (b : Binary) (place : Int) : Nat → Nat → Scaled
  | 0, digits => ⟨((b.grid (place - digits + 1)).nearest?).getD 0, place - digits + 1⟩
  | more + 1, digits =>
    match (b.grid (place - digits + 1)).nearest? with
    | some n => ⟨n, place - digits + 1⟩
    | none => b.shortestFrom place more (digits + 1)

/-- The shortest decimal that rounds to a positive number. Seventeen digits always suffice. -/
def Binary.shortest (b : Binary) : Scaled :=
  b.shortestFrom (b.leadingPlace 4 b.leadingGuess) 16 1

end StubGen.Decimal

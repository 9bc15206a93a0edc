import StubGen.Decimal.Shortest

/-!
# Numbers in JSON text

How a floating-point number is written, and how the digits, point and exponent of a number are
read. Reading collects the digits in 64 bits, drops those that no longer fit, and scales once by
a power of ten, so long numbers are not read to the nearest value.
-/

namespace StubGen.Json

/-- The digits of a natural number. -/
def natDigits (n : Nat) : List Char := Nat.toDigits 10 n

def intDigits (n : Int) : List Char :=
  if n < 0 then '-' :: natDigits n.natAbs else natDigits n.natAbs

/-- Digits without the zeros at the end, and how many of those there were. -/
def splitTrailingZeros (digits : List Char) : List Char × Nat :=
  let zeros := (digits.reverse.takeWhile (· = '0')).length
  (digits.take (digits.length - zeros), zeros)

/-- A positive decimal in text. From `1e-5` up to, but not including, `1e16` it is written out
with at least one digit behind the point; any other has one digit before the point and an
exponent with its sign. -/
def scaledChars (d : Decimal.Scaled) : List Char :=
  let (digits, zeros) := splitTrailingZeros (natDigits d.digits)
  let lowest := d.exponent + zeros
  let place := lowest + digits.length - 1
  if -5 ≤ place ∧ place < 16 then
    if 0 ≤ lowest then digits ++ List.replicate lowest.toNat '0' ++ ['.', '0']
    else if 0 ≤ place then
      digits.take (place.toNat + 1) ++ '.' :: digits.drop (place.toNat + 1)
    else '0' :: '.' :: List.replicate ((-place).toNat - 1) '0' ++ digits
  else
    let body := match digits with
      | [] => []
      | [digit] => [digit]
      | digit :: more => digit :: '.' :: more
    let sign := if place < 0 then '-' else '+'
    body ++ 'e' :: sign :: natDigits place.natAbs

/-- A floating-point number in text: the fewest digits that read back. -/
def floatChars (x : Float) : List Char :=
  let bits := x.toBits
  let sign := if bits.toNat < Nat.pow 2 63 then [] else ['-']
  let magnitude := UInt64.ofNat (bits.toNat % Nat.pow 2 63)
  if magnitude = 0 then sign ++ ['0', '.', '0']
  else sign ++ scaledChars (Decimal.Binary.ofBits magnitude).shortest

/-- The digits of a number as they are read: the part that fits into 64 bits, and whether a digit
has been dropped. -/
structure Digits where
  significand : Nat
  dropped : Nat

/-- Digits before the point. Once a digit does not fit, it and all after it are dropped and
counted. -/
def readWhole (d : Digits) : List Char → Digits
  | [] => d
  | c :: cs =>
    let next := d.significand * 10 + (c.toNat - '0'.toNat)
    if d.dropped = 0 ∧ next < Nat.pow 2 64 then readWhole ⟨next, 0⟩ cs
    else readWhole ⟨d.significand, d.dropped + 1⟩ cs

/-- Digits behind the point: the significand, and how many of them it took up before one did not
fit. -/
def readFraction (significand taken : Nat) : List Char → Nat × Nat
  | [] => (significand, taken)
  | c :: cs =>
    let next := significand * 10 + (c.toNat - '0'.toNat)
    if next < Nat.pow 2 64 then readFraction next (taken + 1) cs else (significand, taken)

/-- The number written by decimal digits. -/
def readDigits (cs : List Char) : Nat :=
  cs.foldl (fun n c => n * 10 + (c.toNat - '0'.toNat)) 0

/-- A power of ten up to the largest that is finite. -/
def powerOfTen (n : Nat) : Float := Float.ofScientific 1 false n

/-- Divides by `1e308` while the exponent is still below it. -/
def scaleDown (x : Float) (exponent : Nat) : Float :=
  if exponent ≤ 308 then x / powerOfTen exponent
  else if x == 0.0 then x
  else scaleDown (x / powerOfTen 308) (exponent - 308)
termination_by exponent

/-- A significand scaled by a power of ten; nothing when it is out of range. -/
def scale? (significand : Nat) (exponent : Int) : Option Float :=
  let x := Float.ofNat significand
  if exponent < 0 then some (scaleDown x exponent.natAbs)
  else if exponent ≤ 308 then
    let y := x * powerOfTen exponent.natAbs
    if y.isInf then none else some y
  else if x == 0.0 then some x
  else none

/-- The parts of a number as written: digits before the point, behind it, and the exponent with
its sign. -/
structure NumberText where
  negative : Bool
  whole : List Char
  fraction : Option (List Char)
  exponent : Option (Bool × List Char)

/-- The floating-point number that the parts stand for; nothing when it is out of range. An
exponent of more than 31 bits makes zero if it is negative or the digits are all zero. -/
def NumberText.float? (t : NumberText) : Option Float :=
  let whole := readWhole ⟨0, 0⟩ t.whole
  let (significand, taken) := readFraction whole.significand 0 (t.fraction.getD [])
  let base : Int := whole.dropped - taken
  let magnitude? :=
    match t.exponent with
    | none => scale? significand base
    | some (negative, digits) =>
      let e := readDigits digits
      if e < Nat.pow 2 31 then scale? significand (if negative then base - e else base + e)
      else if negative || significand = 0 then some 0.0
      else none
  magnitude?.map fun x => if t.negative then -x else x

end StubGen.Json

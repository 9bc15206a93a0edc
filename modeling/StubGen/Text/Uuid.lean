/-!
# Random UUIDs

A UUID of version 4 is 128 bits, of which all but six are random, written in hexadecimal digits
in five groups.
-/

namespace StubGen.Uuid

/-- The last digits of a number in base 16, as many as are asked for. -/
def hexDigits : Nat → Nat → List Char
  | 0, _ => []
  | count + 1, n => hexDigits count (n / 16) ++ [Nat.digitChar (n % 16)]

/-- Digits in groups of 8, 4, 4, 4 and 12. -/
def grouped (digits : List Char) : List Char :=
  digits.take 8 ++ '-' :: (digits.drop 8).take 4 ++ '-' :: (digits.drop 12).take 4 ++
    '-' :: (digits.drop 16).take 4 ++ '-' :: digits.drop 20

/-- Twice 64 bits with the bits that tell the version and the variant put in. -/
def marked (high low : UInt64) : Nat :=
  let high := (high &&& 0xffffffffffff0fff) ||| 0x4000
  let low := (low &&& 0x3fffffffffffffff) ||| 0x8000000000000000
  high.toNat * Nat.pow 2 64 + low.toNat

/-- The UUID of 128 random bits. -/
def ofRandom (high low : UInt64) : String := String.ofList (grouped (hexDigits 32 (marked high low)))

end StubGen.Uuid

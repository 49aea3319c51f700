/-!
# Binary64 numbers

The binary floating-point numbers of 64 bits, as exact arithmetic on
natural numbers. Every finite one is a whole multiple of `2 ^ -1074`, so a
magnitude is the natural number of such units, and a product with a whole
number is rounded on natural numbers alone: a number has at most 53
significant bits, and a number halfway between two such goes to the one
whose last bit is zero.
-/

namespace BountyBoard.Binary64

/-- How many units of `2 ^ -1074` make one. -/
def one : Nat :=
  1 <<< 1074

def exponentField (bits : UInt64) : Nat :=
  (bits.toNat >>> 52) % 2048

def fractionField (bits : UInt64) : Nat :=
  bits.toNat % (1 <<< 52)

def isNegative (bits : UInt64) : Bool :=
  1 <<< 63 ≤ bits.toNat

def isNaN (bits : UInt64) : Bool :=
  exponentField bits == 2047 && fractionField bits != 0

/-- The magnitude of a number in units of `2 ^ -1074`. For an infinity it is
a number greater than that of every finite number. -/
def magnitude (bits : UInt64) : Nat :=
  if exponentField bits = 0 then fractionField bits
  else ((1 <<< 52) + fractionField bits) <<< (exponentField bits - 1)

/-- A number brought into the range from zero to one, in units of
`2 ^ -1074`. What is no number counts as zero. -/
def clampToUnit (bits : UInt64) : Nat :=
  if isNaN bits || isNegative bits then 0 else min (magnitude bits) one

/-- A natural number rounded to 53 significant bits, halfway cases to the
even neighbour. -/
def round (n : Nat) : Nat :=
  let unit := 1 <<< (n.log2 + 1 - 53)
  let low := n / unit
  let rest := n % unit
  if unit < 2 * rest ∨ (unit = 2 * rest ∧ low % 2 = 1) then (low + 1) * unit else low * unit

/-- The whole part of the product of a natural number and a fraction in
units of `2 ^ -1074`, where the number and then the product are rounded to
53 significant bits. -/
def timesFloor (n fraction : Nat) : Nat :=
  round (round n * fraction) / one

end BountyBoard.Binary64

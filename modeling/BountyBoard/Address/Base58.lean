import BountyBoard.Radix

/-!
# Base-58 text

Bytes written with fifty-eight letters and digits that are hard to mistake
for one another: no zero, no capital i or o, no small l. The bytes are the
digits of a number in base 256, the text its digits in base 58, and each
leading zero byte is one leading `1`.
-/

namespace BountyBoard.Base58

/-- The characters of the text, each at the place of its value. -/
def alphabet : List Char :=
  ['1', '2', '3', '4', '5', '6', '7', '8', '9',
    'A', 'B', 'C', 'D', 'E', 'F', 'G', 'H', 'J', 'K', 'L', 'M', 'N', 'P', 'Q', 'R', 'S', 'T',
    'U', 'V', 'W', 'X', 'Y', 'Z',
    'a', 'b', 'c', 'd', 'e', 'f', 'g', 'h', 'i', 'j', 'k', 'm', 'n', 'o', 'p', 'q', 'r', 's',
    't', 'u', 'v', 'w', 'x', 'y', 'z']

def charOf (d : Nat) : Char :=
  alphabet.getD d '1'

def valueOf? (c : Char) : Option Nat :=
  alphabet.idxOf? c

def encode (bytes : List UInt8) : List Char :=
  (Radix.convert 256 58 (bytes.map UInt8.toNat)).map charOf

/-- The values of the characters, or the first character outside the
alphabet with its place, counted on from `start`. -/
def readValues (start : Nat) : List Char → Except (Nat × Char) (List Nat)
  | [] => .ok []
  | c :: r =>
    match valueOf? c with
    | none => .error (start, c)
    | some d => (readValues (start + 1) r).map (d :: ·)

/-- Reads base-58 text back into bytes; fails with the first character
outside the alphabet and its place. -/
def decode (text : List Char) : Except (Nat × Char) (List UInt8) :=
  (readValues 0 text).map fun ds => (Radix.convert 58 256 ds).map UInt8.ofNat

end BountyBoard.Base58

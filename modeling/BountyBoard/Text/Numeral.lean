/-!
# Numerals

Whole numbers as decimal text. A number is written without leading zeros
and with a minus sign when it is negative. It is read from one or more
ASCII digits, with any number of leading zeros, and reading undoes writing
(`readNatural_natural`).
-/

namespace BountyBoard.Text

def natural (n : Nat) : String :=
  String.ofList (Nat.toDigits 10 n)

/-- A whole number, with a minus sign when it is negative. -/
def integer : Int → String
  | .ofNat n => natural n
  | .negSucc n => "-" ++ natural (n + 1)

def digitsValue (cs : List Char) : Nat :=
  Nat.ofDigitChars 10 cs 0

/-- Reads one or more ASCII digits, and nothing else. -/
def readNatural (s : String) : Option Nat :=
  if s.toList ≠ [] ∧ s.toList.all Char.isDigit then some (digitsValue s.toList) else none

/-- Reads a natural number that may have a plus sign before it. -/
def readUnsigned (s : String) : Option Nat :=
  match s.toList with
  | '+' :: r => readNatural (String.ofList r)
  | cs => readNatural (String.ofList cs)

/-- Reads a whole number that may have a plus or a minus sign before it. -/
def readSigned (s : String) : Option Int :=
  match s.toList with
  | '-' :: r => (readNatural (String.ofList r)).map fun n => -(n : Int)
  | _ => (readUnsigned s).map Int.ofNat

theorem digitsValue_toDigits (n : Nat) : digitsValue (Nat.toDigits 10 n) = n := by
  simp [digitsValue]

theorem readNatural_natural (n : Nat) : readNatural (natural n) = some n := by
  have hdigits : (Nat.toDigits 10 n).all Char.isDigit = true :=
    List.all_eq_true.2 fun c hc => Nat.isDigit_of_mem_toDigits (by decide) (by decide) hc
  simp only [readNatural, natural, String.toList_ofList]
  rw [if_pos ⟨Nat.toDigits_ne_nil, hdigits⟩, digitsValue_toDigits]

end BountyBoard.Text

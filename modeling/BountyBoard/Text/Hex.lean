/-!
# Bytes as hexadecimal text

Two digits a byte, the high one first. Digits are written in lower case and
read in either case.
-/

namespace BountyBoard.Text

def hexDigit (n : Nat) : Char :=
  Nat.digitChar n

/-- The value of a hexadecimal digit in either case. -/
def hexDigitValue? (c : Char) : Option Nat :=
  if '0' ≤ c ∧ c ≤ '9' then some (c.toNat - '0'.toNat)
  else if 'a' ≤ c ∧ c ≤ 'f' then some (c.toNat - 'a'.toNat + 10)
  else if 'A' ≤ c ∧ c ≤ 'F' then some (c.toNat - 'A'.toNat + 10)
  else none

def hexByte (b : UInt8) : List Char :=
  [hexDigit (b.toNat / 16), hexDigit (b.toNat % 16)]

def hexBytes (bs : List UInt8) : String :=
  String.ofList (bs.flatMap hexByte)

def readHexList : List Char → Option (List UInt8)
  | [] => some []
  | [_] => none
  | a :: b :: r => do
    let high ← hexDigitValue? a
    let low ← hexDigitValue? b
    let rest ← readHexList r
    return UInt8.ofNat (16 * high + low) :: rest

/-- Reads hexadecimal text back into bytes. -/
def readHex (s : String) : Option (List UInt8) :=
  readHexList s.toList

theorem hexDigitValue?_hexDigit : ∀ n < 16, hexDigitValue? (hexDigit n) = some n := by
  decide

theorem readHexList_flatMap (bytes : List UInt8) :
    readHexList (bytes.flatMap hexByte) = some bytes := by
  induction bytes with
  | nil => rfl
  | cons b rest ih =>
      have hb := b.toNat_lt
      have hhigh := hexDigitValue?_hexDigit (b.toNat / 16) (by omega)
      have hlow := hexDigitValue?_hexDigit (b.toNat % 16) (by omega)
      rw [List.flatMap_cons]
      show readHexList (hexDigit _ :: hexDigit _ :: rest.flatMap hexByte) = _
      rw [readHexList, hhigh, hlow, ih]
      show some (UInt8.ofNat (16 * (b.toNat / 16) + b.toNat % 16) :: rest) = _
      rw [Nat.div_add_mod, UInt8.ofNat_toNat]

/-- Bytes are read back from their hexadecimal text. -/
theorem readHex_hexBytes (bytes : List UInt8) : readHex (hexBytes bytes) = some bytes := by
  rw [readHex, hexBytes, String.toList_ofList, readHexList_flatMap]

theorem hexBytes_inj {as bs : List UInt8} : hexBytes as = hexBytes bs ↔ as = bs := by
  refine ⟨fun h => ?_, congrArg _⟩
  have hread := readHex_hexBytes as
  rw [h, readHex_hexBytes] at hread
  exact (Option.some.inj hread).symm

end BountyBoard.Text

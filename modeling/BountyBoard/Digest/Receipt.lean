import BountyBoard.Address
import BountyBoard.Amount
import BountyBoard.Digest.Blake3
import BountyBoard.Radix
import BountyBoard.Text.Hex

/-!
# Names made by hashing

The name of an approval is a hash of what was approved, by whom and when.
The address of a seed is a hash of the seed.
-/

namespace BountyBoard

def utf8 (s : String) : List UInt8 :=
  s.toUTF8.toList

/-- The eight bytes of a word, the high one first. -/
def bigEndian (w : UInt64) : List UInt8 :=
  [(w >>> 56).toUInt8, (w >>> 48).toUInt8, (w >>> 40).toUInt8, (w >>> 32).toUInt8,
    (w >>> 24).toUInt8, (w >>> 16).toUInt8, (w >>> 8).toUInt8, w.toUInt8]

theorem value_bigEndian (w : UInt64) :
    Radix.value 256 ((bigEndian w).map UInt8.toNat) = w.toNat := by
  have hlt : w.toNat < 18446744073709551616 := w.toNat_lt_size
  simp only [Radix.value, bigEndian, List.map_cons, UInt64.toNat_toUInt8,
    UInt64.toNat_shiftRight, UInt64.reduceToNat, Nat.reduceMod, Nat.shiftRight_eq_div_pow,
    Nat.reducePow, List.map_nil, List.foldl_cons, Nat.zero_mul, Nat.zero_add, List.foldl_nil]
  omega

theorem bigEndian_inj {v w : UInt64} : bigEndian v = bigEndian w ↔ v = w := by
  refine ⟨fun h => ?_, congrArg _⟩
  rw [← UInt64.toNat_inj, ← value_bigEndian, h, value_bigEndian]

/-- What is hashed to name an approval: the task's id, the approver and the
time. The texts between the two fixed lengths need no mark of their ends. -/
def approvalBytes (id : TaskId) (approver : String) (now : Time) : List UInt8 :=
  bigEndian id ++ utf8 approver ++ bigEndian now.toUInt64

def approvalName (id : TaskId) (approver : String) (now : Time) : String :=
  Text.hexBytes (Blake3.hash (approvalBytes id approver now))

def Address.ofSeed (seed : String) : Address :=
  ⟨Blake3.hash (utf8 seed), Blake3.length_hash _⟩

end BountyBoard

/-!
# Fixed ranges

The ranges of the numbers on the board. An amount of tokens has 128 bits,
ids, lengths and durations have 64 without a sign, and times have 64 with
one. A number read from outside enters through `ofNat?` or `ofInt?`, which
refuse what does not fit.
-/

namespace BountyBoard

/-- The number of amounts, two to the power of 128. -/
def Amount.size : Nat :=
  340282366920938463463374607431768211456

/-- An amount of tokens, in the smallest unit of its denomination. -/
structure Amount where
  toNat : Nat
  isLt : toNat < Amount.size
deriving Repr, DecidableEq

namespace Amount

@[ext] theorem ext {a b : Amount} (h : a.toNat = b.toNat) : a = b := by
  cases a
  cases b
  cases h
  rfl

instance : LT Amount := ⟨fun a b => a.toNat < b.toNat⟩
instance : LE Amount := ⟨fun a b => a.toNat ≤ b.toNat⟩

instance (a b : Amount) : Decidable (a < b) := inferInstanceAs (Decidable (a.toNat < b.toNat))
instance (a b : Amount) : Decidable (a ≤ b) := inferInstanceAs (Decidable (a.toNat ≤ b.toNat))

theorem lt_def {a b : Amount} : a < b ↔ a.toNat < b.toNat := Iff.rfl
theorem le_def {a b : Amount} : a ≤ b ↔ a.toNat ≤ b.toNat := Iff.rfl

def zero : Amount := ⟨0, by decide⟩

def ofNat? (n : Nat) : Option Amount :=
  if h : n < size then some ⟨n, h⟩ else none

theorem ofNat?_toNat (a : Amount) : ofNat? a.toNat = some a := by
  rw [ofNat?, dif_pos a.isLt]

end Amount

/-- A length, a duration in seconds, a weight or a number of things. -/
abbrev Count := UInt64

def Count.ofNat? (n : Nat) : Option Count :=
  if h : n < UInt64.size then some (UInt64.ofNatLT n h) else none

/-- A task's number, given at creation and never given again. -/
abbrev TaskId := Count

/-- Seconds since the Unix epoch. The caller supplies the time. -/
abbrev Time := Int64

def Time.ofInt? (i : Int) : Option Time :=
  if Int64.minValue.toInt ≤ i ∧ i ≤ Int64.maxValue.toInt then some (Int64.ofInt i) else none

theorem Count.ofNat?_toNat (n : Count) : Count.ofNat? n.toNat = some n := by
  rw [Count.ofNat?, dif_pos n.toNat_lt_size, UInt64.ofNatLT_toNat]

theorem Time.ofInt?_toInt (t : Time) : Time.ofInt? t.toInt = some t := by
  rw [Time.ofInt?, if_pos ⟨t.minValue_le_toInt, t.toInt_le⟩, Int64.ofInt_toInt]

end BountyBoard

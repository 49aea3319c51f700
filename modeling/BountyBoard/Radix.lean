/-!
# Numbers by their digits

Digit strings in one base turned into digit strings in another. Digits
stand most significant first. A digit string is more than the number it
stands for: each leading zero counts, and `convert` carries every leading
zero over as one leading zero of the result.
-/

namespace BountyBoard.Radix

/-- The digits of a number in base `b`, without leading zeros; zero has none. -/
def digits (b n : Nat) : List Nat :=
  if _h : 2 ≤ b ∧ 0 < n then digits b (n / b) ++ [n % b] else []
termination_by n
decreasing_by exact Nat.div_lt_self _h.2 _h.1

/-- The number that a digit string in base `b` stands for. -/
def value (b : Nat) (ds : List Nat) : Nat :=
  ds.foldl (fun n d => n * b + d) 0

/-- How many zeros a digit string begins with. -/
def leadingZeros (ds : List Nat) : Nat :=
  (ds.takeWhile (· == 0)).length

/-- A digit string in base `a` as one in base `b`. -/
def convert (a b : Nat) (ds : List Nat) : List Nat :=
  List.replicate (leadingZeros ds) 0 ++ digits b (value a ds)

theorem digits_zero (b : Nat) : digits b 0 = [] := by
  rw [digits]
  simp

theorem digits_of_pos {b n : Nat} (hb : 2 ≤ b) (hn : 0 < n) :
    digits b n = digits b (n / b) ++ [n % b] := by
  rw [digits, dif_pos ⟨hb, hn⟩]

theorem value_append_singleton (b d : Nat) (ds : List Nat) :
    value b (ds ++ [d]) = value b ds * b + d := by
  simp [value]

/-- The digits of a number stand for that number. -/
theorem value_digits {b : Nat} (hb : 2 ≤ b) (n : Nat) : value b (digits b n) = n := by
  induction n using Nat.strongRecOn with
  | ind n ih =>
    rcases Nat.eq_zero_or_pos n with rfl | hn
    · rw [digits_zero]
      rfl
    · rw [digits_of_pos hb hn, value_append_singleton, ih _ (Nat.div_lt_self hn hb)]
      exact Nat.div_add_mod' n b

end BountyBoard.Radix

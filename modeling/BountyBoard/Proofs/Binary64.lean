import BountyBoard.Binary64
import Mathlib

/-!
# Rounding to binary64

The arithmetic on natural numbers is that of binary64 numbers. A finite
pattern stands for a `number` and every other one but NaN for an infinity
(`extended`), in the reading of sign, exponent and fraction that is usual.
`NearestEven` says what it is to be a rational number rounded.

* Among all numbers, `round` gives the nearest one, and of two that are as
  near the one whose last bit is zero (`nearestEven_pattern`). There is no
  second one (`NearestEven.number_eq_round`), so that `timesFloor` is the whole
  part of the product (`floor_eq_timesFloor`).
* `clampToUnit` is `max 0 (min 1 ·)` (`clamp_extended`).

Both sides are whole multiples of the same `quantum`. What is to be shown about
distances between rational numbers thus comes down to whole numbers, where the
two neighbours of a number are known: no representable number lies between
them (`Representable.le_or_le`). That rounding is monotone follows from this
alone (`round_mono`).
-/

namespace BountyBoard.Binary64

/-! ## Rounding natural numbers -/

/-- A whole number with at most 53 significant bits. -/
def Representable (y : ℕ) : Prop :=
  ∃ s k, s < 2 ^ 53 ∧ y = s * 2 ^ k

/-- How far the significant bits of a number reach beyond 53. -/
def excess (n : ℕ) : ℕ :=
  n.log2 + 1 - 53

theorem div_excess_lt (n : ℕ) : n / 2 ^ excess n < 2 ^ 53 := by
  rw [Nat.div_lt_iff_lt_mul (Nat.two_pow_pos _), ← pow_add]
  refine Nat.lt_of_lt_of_le Nat.lt_log2_self (Nat.pow_le_pow_right Nat.two_pos ?_)
  unfold excess
  omega

/-- Where bits are cut off, all 53 bits are used. -/
theorem le_div_excess {n : ℕ} (h : 0 < excess n) : 2 ^ 52 ≤ n / 2 ^ excess n := by
  have hn : n ≠ 0 := by
    rintro rfl
    simp [excess] at h
  rw [Nat.le_div_iff_mul_le (Nat.two_pow_pos _), ← pow_add]
  refine Nat.le_trans (Nat.pow_le_pow_right Nat.two_pos ?_) (Nat.log2_self_le hn)
  unfold excess at h ⊢
  omega

/-- The significant bits that are kept: the leading ones, or one more where the
rest is the greater part, or in a tie where the last of them is not zero. -/
def significand (n : ℕ) : ℕ :=
  if 2 ^ excess n < 2 * (n % 2 ^ excess n)
      ∨ 2 ^ excess n = 2 * (n % 2 ^ excess n) ∧ n / 2 ^ excess n % 2 = 1 then
    n / 2 ^ excess n + 1
  else n / 2 ^ excess n

theorem round_eq (n : ℕ) : round n = significand n * 2 ^ excess n := by
  rw [significand, ite_mul]
  simp only [round, Nat.one_shiftLeft, excess]
  rfl

theorem significand_cases (n : ℕ) :
    (significand n = n / 2 ^ excess n
      ∧ (2 * (n % 2 ^ excess n) < 2 ^ excess n
        ∨ 2 * (n % 2 ^ excess n) = 2 ^ excess n ∧ n / 2 ^ excess n % 2 = 0))
    ∨ (significand n = n / 2 ^ excess n + 1
      ∧ (2 ^ excess n < 2 * (n % 2 ^ excess n)
        ∨ 2 * (n % 2 ^ excess n) = 2 ^ excess n ∧ n / 2 ^ excess n % 2 = 1)) := by
  rw [significand]
  split <;> omega

theorem significand_le (n : ℕ) : significand n ≤ 2 ^ 53 := by
  have hq := div_excess_lt n
  obtain ⟨h, -⟩ | ⟨h, -⟩ := significand_cases n <;> omega

theorem le_significand {n : ℕ} (h : 0 < excess n) : 2 ^ 52 ≤ significand n := by
  have hq := le_div_excess h
  obtain ⟨h, -⟩ | ⟨h, -⟩ := significand_cases n <;> omega

/-- No representable number lies strictly between the two neighbours. -/
theorem Representable.le_or_le {y : ℕ} (h : Representable y) (n : ℕ) :
    y ≤ n / 2 ^ excess n * 2 ^ excess n ∨ (n / 2 ^ excess n + 1) * 2 ^ excess n ≤ y := by
  obtain ⟨s, k, hs, rfl⟩ := h
  obtain hk | hk := Nat.lt_or_ge k (excess n)
  · -- too short to reach the lower neighbour
    left
    calc s * 2 ^ k ≤ 2 ^ 53 * 2 ^ (excess n - 1) :=
          Nat.mul_le_mul hs.le (Nat.pow_le_pow_right Nat.two_pos (by omega))
      _ = 2 ^ 52 * 2 ^ excess n := by
          rw [← pow_add, ← pow_add]
          congr 1
          omega
      _ ≤ n / 2 ^ excess n * 2 ^ excess n := Nat.mul_le_mul_right _ (le_div_excess (by omega))
  · -- a multiple of the unit
    obtain ⟨j, rfl⟩ := Nat.exists_eq_add_of_le hk
    rw [pow_add, Nat.mul_comm (2 ^ excess n), ← Nat.mul_assoc]
    obtain h | h := Nat.lt_or_ge (n / 2 ^ excess n) (s * 2 ^ j)
    · exact .inr (Nat.mul_le_mul_right _ h)
    · exact .inl (Nat.mul_le_mul_right _ h)

theorem representable_mul_pow {s : ℕ} (h : s ≤ 2 ^ 53) (k : ℕ) : Representable (s * 2 ^ k) := by
  obtain h | rfl := h.lt_or_eq
  · exact ⟨s, k, h, rfl⟩
  · refine ⟨2 ^ 52, k + 1, by omega, ?_⟩
    rw [← pow_add, ← pow_add]
    congr 1
    omega

theorem representable_round (n : ℕ) : Representable (round n) :=
  round_eq n ▸ representable_mul_pow (significand_le n) _

theorem Representable.le_or_le_int {z : ℤ} (h : Representable z.natAbs) (n : ℕ) :
    z ≤ (n / 2 ^ excess n * 2 ^ excess n : ℕ)
      ∨ ((n / 2 ^ excess n + 1) * 2 ^ excess n : ℕ) ≤ z := by
  obtain h | h := h.le_or_le n
  · exact .inl (Int.le_natAbs.trans (Int.ofNat_le.2 h))
  · obtain hz | hz := z.natAbs_eq
    · exact .inr (hz ▸ Int.ofNat_le.2 h)
    · left
      omega

/-- No representable number, of whatever sign, is nearer to a number than the
one it is rounded to. Where another one is as near, the last bit kept is zero,
and the last bit of the other one is not. -/
theorem round_nearest (n : ℕ) {z : ℤ} (h : Representable z.natAbs) :
    |(n : ℤ) - round n| ≤ |(n : ℤ) - z|
      ∧ (z ≠ round n → |(n : ℤ) - round n| = |(n : ℤ) - z| → significand n % 2 = 0
        ∧ ∃ s, s % 2 = 1 ∧ (0 < excess n → 2 ^ 52 ≤ s) ∧ z = (s * 2 ^ excess n : ℕ)) := by
  have hn := Nat.div_add_mod' n (2 ^ excess n)
  have hlt := Nat.mod_lt n (Nat.two_pow_pos (excess n))
  have hgap := h.le_or_le_int n
  have hround := round_eq n
  have hdist := abs_cases ((n : ℤ) - round n)
  have hother := abs_cases ((n : ℤ) - z)
  have hfull : 0 < excess n → 2 ^ 52 ≤ n / 2 ^ excess n := le_div_excess
  have hupper := Nat.succ_mul (n / 2 ^ excess n) (2 ^ excess n)
  rw [Nat.succ_eq_add_one] at hupper
  rw [hupper] at hgap
  generalize hrest : n % 2 ^ excess n = rest at hn hlt
  generalize hlow : n / 2 ^ excess n * 2 ^ excess n = low at hn hgap hupper
  obtain ⟨hs, hcase⟩ | ⟨hs, hcase⟩ := significand_cases n
  · rw [hs, hlow] at hround
    refine ⟨by omega, fun hne htie => ⟨by omega, n / 2 ^ excess n + 1, by omega, by omega, ?_⟩⟩
    omega
  · rw [hs, hupper] at hround
    refine ⟨by omega, fun hne htie => ⟨by omega, n / 2 ^ excess n, by omega, hfull, ?_⟩⟩
    omega

theorem round_of_representable {n : ℕ} (h : Representable n) : round n = n := by
  have hle := (round_nearest n (z := n) h).1
  rw [sub_self, abs_zero, abs_nonpos_iff] at hle
  omega

theorem round_mono {m n : ℕ} (h : m ≤ n) : round m ≤ round n := by
  have hm := (round_nearest m (z := round n) (representable_round n)).1
  have hn := (round_nearest n (z := round m) (representable_round m)).1
  simp only [Int.abs_eq_natAbs] at hm hn
  obtain rfl | h := h.eq_or_lt
  · rfl
  · omega

theorem log2_mul_pow {n : ℕ} (hn : n ≠ 0) (j : ℕ) : (n * 2 ^ j).log2 = n.log2 + j := by
  obtain ⟨hle, hlt⟩ := (Nat.log2_eq_iff hn).1 rfl
  have hpos := Nat.two_pow_pos j
  rw [Nat.log2_eq_iff (Nat.mul_ne_zero hn hpos.ne'), Nat.add_right_comm, pow_add, pow_add _ _ j]
  exact ⟨Nat.mul_le_mul_right _ hle, Nat.mul_lt_mul_of_pos_right hlt hpos⟩

/-- Rounding does not depend on the unit that a number is written in. -/
theorem round_mul_pow (n j : ℕ) : round (n * 2 ^ j) = round n * 2 ^ j := by
  obtain h | h := Nat.eq_zero_or_pos (excess n)
  · have hn : n < 2 ^ 53 := by
      have hq := div_excess_lt n
      rwa [h, pow_zero, Nat.div_one] at hq
    rw [round_of_representable ⟨n, j, hn, rfl⟩,
      round_of_representable ⟨n, 0, hn, (Nat.mul_one n).symm⟩]
  · have hexcess : excess (n * 2 ^ j) = excess n + j := by
      have hn : n ≠ 0 := by
        rintro rfl
        simp [excess] at h
      unfold excess at h ⊢
      rw [log2_mul_pow hn]
      omega
    have hsignificand : significand (n * 2 ^ j) = significand n := by
      have hpos := Nat.two_pow_pos j
      simp only [significand, hexcess, pow_add, Nat.mul_div_mul_right _ _ hpos,
        Nat.mul_mod_mul_right, ← Nat.mul_assoc, Nat.mul_lt_mul_right hpos,
        Nat.mul_left_inj hpos.ne']
    rw [round_eq, round_eq, hexcess, hsignificand, pow_add, Nat.mul_assoc]

theorem round_mul_one (n : ℕ) : round (n * one) = round n * one := by
  have hround (k : ℕ) : round (n * 1 <<< k) = round n * 1 <<< k := by
    rw [Nat.one_shiftLeft, round_mul_pow]
  exact hround 1074

/-! ## Patterns and what they stand for -/

/-- The smallest positive number. -/
def quantum : ℚ :=
  2 ^ (-1074 : ℤ)

/-- The number that a pattern of finite exponent stands for. -/
def number (bits : UInt64) : ℚ :=
  (if isNegative bits then -1 else 1)
    * if exponentField bits = 0 then (fractionField bits : ℚ) * 2 ^ (-1074 : ℤ)
      else (2 ^ 52 + fractionField bits : ℚ) * 2 ^ ((exponentField bits : ℤ) - 1075)

theorem number_of_fields {bits : UInt64} {e f : ℕ} (hexponent : exponentField bits = e)
    (hfraction : fractionField bits = f) (hnegative : isNegative bits = false) (he : e ≠ 0) :
    number bits = (2 ^ 52 + f : ℚ) * 2 ^ ((e : ℤ) - 1075) := by
  rw [number, hexponent, hfraction, hnegative, if_neg he]
  exact one_mul _

def IsFinite (bits : UInt64) : Prop :=
  exponentField bits ≠ 2047

/-- What a pattern stands for that is not NaN: a number or an infinity. -/
def extended (bits : UInt64) : WithBot (WithTop ℚ) :=
  if exponentField bits = 2047 then if isNegative bits then ⊥ else ⊤
  else ((number bits : ℚ) : WithTop ℚ)

/-- The number that is nearest to `x`. Where two numbers are as near, it is
the one whose last bit is zero. -/
structure NearestEven (x : ℚ) (bits : UInt64) : Prop where
  finite : IsFinite bits
  nearest : ∀ other, IsFinite other → |x - number bits| ≤ |x - number other|
  even : ∀ other, IsFinite other → number other ≠ number bits →
    |x - number bits| = |x - number other| → bits.toNat % 2 = 0

/-- The magnitude with its sign. -/
def signed (bits : UInt64) : ℤ :=
  if isNegative bits then -magnitude bits else magnitude bits

theorem quantum_pos : 0 < quantum :=
  zpow_pos two_pos _

theorem one_mul_quantum : (one : ℚ) * quantum = 1 := by
  have hcancel (k : ℕ) : ((1 <<< k : ℕ) : ℚ) * 2 ^ (-(k : ℤ)) = 1 := by
    rw [Nat.one_shiftLeft, Nat.cast_pow, Nat.cast_ofNat, zpow_neg, zpow_natCast,
      mul_inv_cancel₀ (pow_ne_zero k two_ne_zero)]
  exact hcancel 1074

/-- A whole number in units of `2 ^ -1074`. -/
theorem mul_one_mul_quantum (n : ℕ) : ((n * one : ℕ) : ℚ) * quantum = n := by
  rw [Nat.cast_mul, mul_assoc, one_mul_quantum, mul_one]

theorem floor_mul_quantum (n : ℕ) : ⌊(n : ℚ) * quantum⌋₊ = n / one := by
  rw [eq_inv_of_mul_eq_one_right one_mul_quantum, ← div_eq_mul_inv, Nat.floor_div_eq_div]

theorem number_eq (bits : UInt64) : number bits = signed bits * quantum := by
  have hmagnitude : (magnitude bits : ℚ) * quantum =
      if exponentField bits = 0 then (fractionField bits : ℚ) * 2 ^ (-1074 : ℤ)
      else (2 ^ 52 + fractionField bits : ℚ) * 2 ^ ((exponentField bits : ℤ) - 1075) := by
    rw [magnitude, quantum]
    split
    case isTrue => rfl
    case isFalse h =>
      have hexponent : (exponentField bits : ℤ) - 1075 = (exponentField bits - 1 : ℕ) + -1074 := by
        omega
      rw [hexponent, zpow_add₀ two_ne_zero, zpow_natCast, Nat.shiftLeft_eq, Nat.one_shiftLeft,
        Nat.cast_mul, Nat.cast_add, Nat.cast_pow, Nat.cast_pow, Nat.cast_ofNat, mul_assoc]
  rw [number, ← hmagnitude, signed]
  split
  · rw [Int.cast_neg, Int.cast_natCast, neg_one_mul, neg_mul]
  · rw [Int.cast_natCast, one_mul]

theorem number_inj {a b : UInt64} : number a = number b ↔ signed a = signed b := by
  rw [number_eq, number_eq, mul_left_inj' quantum_pos.ne', Int.cast_inj]

theorem distance (n : ℕ) (bits : UInt64) :
    |n * quantum - number bits| = |(n : ℤ) - signed bits| * quantum := by
  rw [number_eq, ← sub_mul, abs_mul, abs_of_pos quantum_pos]
  push_cast
  rfl

theorem distance_inj {n : ℕ} {a b : UInt64} :
    |n * quantum - number a| = |n * quantum - number b|
      ↔ |(n : ℤ) - signed a| = |(n : ℤ) - signed b| := by
  rw [distance, distance, mul_left_inj' quantum_pos.ne', Int.cast_inj]

theorem natAbs_signed (bits : UInt64) : (signed bits).natAbs = magnitude bits := by
  rw [signed]
  split
  · exact Int.natAbs_neg _
  · rfl

/-- The last bit of a pattern is the last of its significant bits. -/
theorem exists_magnitude (bits : UInt64) :
    ∃ s k, s < 2 ^ 53 ∧ s % 2 = bits.toNat % 2 ∧ magnitude bits = s * 2 ^ k := by
  rw [magnitude, fractionField, Nat.one_shiftLeft, Nat.shiftLeft_eq]
  split
  · exact ⟨_, 0, by omega, by omega, (Nat.mul_one _).symm⟩
  · exact ⟨_, _, by omega, by omega, rfl⟩

theorem representable_signed (bits : UInt64) : Representable (signed bits).natAbs := by
  obtain ⟨s, k, hs, -, hmagnitude⟩ := exists_magnitude bits
  exact ⟨s, k, hs, (natAbs_signed bits).trans hmagnitude⟩

/-! ## The pattern of a rounded number -/

/-- The pattern of a number rounded, in units of `2 ^ -1074`. -/
def pattern (n : ℕ) : UInt64 :=
  UInt64.ofNat (excess n * 2 ^ 52 + significand n)

theorem toNat_pattern {n : ℕ} (h : excess n ≤ 2044) :
    (pattern n).toNat = excess n * 2 ^ 52 + significand n := by
  have hs := significand_le n
  rw [pattern, UInt64.toNat_ofNat']
  omega

theorem isFinite_pattern {n : ℕ} (h : excess n ≤ 2044) : IsFinite (pattern n) := by
  have hs := significand_le n
  rw [IsFinite, exponentField, toNat_pattern h, Nat.shiftRight_eq_div_pow]
  omega

theorem isNegative_pattern {n : ℕ} (h : excess n ≤ 2044) : isNegative (pattern n) = false := by
  have hs := significand_le n
  rw [isNegative, toNat_pattern h, decide_eq_false_iff_not, Nat.one_shiftLeft]
  omega

theorem magnitude_pattern {n : ℕ} (h : excess n ≤ 2044) : magnitude (pattern n) = round n := by
  have hs := significand_le n
  have hle : 0 < excess n → 2 ^ 52 ≤ significand n := le_significand
  rw [magnitude, exponentField, fractionField, toNat_pattern h, Nat.shiftRight_eq_div_pow,
    Nat.one_shiftLeft, Nat.shiftLeft_eq, round_eq]
  obtain hlt | hge := Nat.lt_or_ge (significand n) (2 ^ 52)
  · -- all bits are in the fraction
    have hzero : excess n = 0 := by omega
    rw [if_pos (by omega), hzero]
    omega
  · -- the leading bit raises the exponent by one, and a carry by two
    obtain hlt | heq := hs.lt_or_eq
    · have hexponent : (excess n * 2 ^ 52 + significand n) / 2 ^ 52 % 2048 - 1 = excess n := by
        omega
      rw [if_neg (by omega), hexponent]
      congr 1
      omega
    · have hexponent : (excess n * 2 ^ 52 + 2 ^ 53) / 2 ^ 52 % 2048 - 1 = excess n + 1 := by
        omega
      have hfraction : (excess n * 2 ^ 52 + 2 ^ 53) % 2 ^ 52 = 0 := by omega
      rw [heq, if_neg (by omega), hexponent, hfraction, pow_succ]
      omega

theorem signed_pattern {n : ℕ} (h : excess n ≤ 2044) : signed (pattern n) = round n := by
  rw [signed, isNegative_pattern h, magnitude_pattern h]
  rfl

/-- `round` is rounding to the nearest number and to the even one of two. -/
theorem nearestEven_pattern {n : ℕ} (h : excess n ≤ 2044) :
    NearestEven (n * quantum) (pattern n) := by
  have hnearest (other : UInt64) := round_nearest n (representable_signed other)
  refine ⟨isFinite_pattern h, fun other _ => ?_, fun other _ hne htie => ?_⟩
  · rw [distance, distance, signed_pattern h]
    exact mul_le_mul_of_nonneg_right (Int.cast_le.2 (hnearest other).1) quantum_pos.le
  · rw [distance_inj, signed_pattern h] at htie
    rw [Ne, number_inj, signed_pattern h] at hne
    have heven := ((hnearest other).2 hne htie).1
    rw [toNat_pattern h]
    omega

/-- Where all 53 bits are used and the last one is set, there is no other way
to write the number. -/
theorem mul_pow_ne_of_odd {s u j k : ℕ} (hs : s % 2 = 1) (hfull : 0 < j → 2 ^ 52 ≤ s)
    (hu : u < 2 ^ 53) (heven : u % 2 = 0) : s * 2 ^ j ≠ u * 2 ^ k := by
  obtain ⟨v, rfl⟩ := Nat.dvd_of_mod_eq_zero heven
  rw [Nat.mul_comm 2 v, Nat.mul_assoc, ← pow_succ']
  obtain hlt | hge := Nat.lt_or_ge k j
  · refine (Nat.lt_of_lt_of_le ?_ (Nat.mul_le_mul (hfull (by omega))
      (Nat.pow_le_pow_right Nat.two_pos hlt))).ne'
    exact Nat.mul_lt_mul_of_pos_right (by omega) (Nat.two_pow_pos _)
  · obtain ⟨i, rfl⟩ := Nat.exists_eq_add_of_le hge
    intro h
    rw [Nat.add_assoc, Nat.add_comm j, pow_add, ← Nat.mul_assoc,
      Nat.mul_left_inj (Nat.two_pow_pos j).ne', pow_succ, ← Nat.mul_assoc] at h
    omega

/-- A second number as near would have an even pattern, too, and lie on the
other side, where the last bit is not zero. -/
theorem NearestEven.signed_eq {n : ℕ} {bits : UInt64} (hbits : NearestEven (n * quantum) bits)
    (h : excess n ≤ 2044) : signed bits = round n := by
  by_contra hne
  have hpattern := nearestEven_pattern h
  have htie := le_antisymm (hpattern.nearest bits hbits.finite)
    (hbits.nearest (pattern n) hpattern.finite)
  have hnumber : number (pattern n) ≠ number bits := by
    rw [Ne, number_inj, signed_pattern h]
    exact Ne.symm hne
  have heven := hbits.even _ hpattern.finite hnumber htie.symm
  rw [distance_inj, signed_pattern h] at htie
  obtain ⟨-, s, hodd, hfull, hsigned⟩ :=
    (round_nearest n (representable_signed bits)).2 hne htie
  obtain ⟨u, k, hu, hlast, hmagnitude⟩ := exists_magnitude bits
  rw [← natAbs_signed, hsigned, Int.natAbs_natCast] at hmagnitude
  exact mul_pow_ne_of_odd hodd hfull hu (hlast.trans heven) hmagnitude

theorem NearestEven.number_eq_round {n : ℕ} {bits : UInt64}
    (hbits : NearestEven (n * quantum) bits) (h : excess n ≤ 2044) :
    number bits = round n * quantum := by
  rw [number_eq, hbits.signed_eq h, Int.cast_natCast]

/-! ## The unit interval -/

theorem clampToUnit_le_one (bits : UInt64) : clampToUnit bits ≤ one := by
  rw [clampToUnit]
  split
  · exact Nat.zero_le _
  · exact Nat.min_le_right _ _

theorem one_le_magnitude {bits : UInt64} (h : exponentField bits = 2047) :
    one ≤ magnitude bits := by
  have hshift {m j k : ℕ} (hm : 1 ≤ m) (hk : j ≤ k) : 1 <<< j ≤ m <<< k := by
    rw [Nat.shiftLeft_eq, Nat.shiftLeft_eq]
    exact Nat.mul_le_mul hm (Nat.pow_le_pow_right Nat.two_pos hk)
  rw [magnitude, h, if_neg (by omega), one]
  exact hshift (by omega) (by omega)

/-- Clamping brings what a pattern stands for into the unit interval. -/
theorem clamp_extended {bits : UInt64} (h : isNaN bits = false) :
    max 0 (min 1 (extended bits)) = ((clampToUnit bits * quantum : ℚ) : WithTop ℚ) := by
  rw [clampToUnit, h, Bool.false_or, extended]
  split
  case isTrue hinf =>
    split
    · rw [Nat.cast_zero, zero_mul]
      simp
    · rw [Nat.min_eq_right (one_le_magnitude hinf), one_mul_quantum]
      simp
  case isFalse hfinite =>
    have hclamp : max 0 (min 1 (number bits)) =
        ((if isNegative bits then 0 else min (magnitude bits) one : ℕ) : ℚ) * quantum := by
      rw [number_eq, signed]
      split
      · have hle : ((-magnitude bits : ℤ) : ℚ) * quantum ≤ 0 := by
          rw [Int.cast_neg, neg_mul, neg_nonpos]
          exact mul_nonneg (Nat.cast_nonneg _) quantum_pos.le
        rw [max_eq_left (inf_le_of_right_le hle), Nat.cast_zero, zero_mul]
      · have hle : 0 ≤ ((min (magnitude bits) one : ℕ) : ℚ) * quantum :=
          mul_nonneg (Nat.cast_nonneg _) quantum_pos.le
        rw [← one_mul_quantum, Int.cast_natCast, ← min_mul_of_nonneg _ _ quantum_pos.le,
          ← Nat.cast_min, min_comm, max_eq_right hle]
    rw [← hclamp]
    rfl

/-- From one on a number counts as one. -/
theorem clamp_of_one_le {bits : UInt64} (h : 1 ≤ extended bits) :
    max 0 (min 1 (extended bits)) = ((1 : ℚ) : WithTop ℚ) := by
  rw [min_eq_left h]
  exact max_eq_right zero_le_one

theorem clampToUnit_mul_quantum {bits : UInt64} (hnan : isNaN bits = false) {x : ℚ}
    (hx : max 0 (min 1 (extended bits)) = (x : WithTop ℚ)) :
    clampToUnit bits * quantum = x :=
  WithTop.coe_injective (WithBot.coe_injective ((clamp_extended hnan).symm.trans hx))

theorem clampToUnit_of_one_le {bits : UInt64} (hnan : isNaN bits = false)
    (h : 1 ≤ extended bits) : clampToUnit bits = one := by
  have hone := (clampToUnit_mul_quantum hnan (clamp_of_one_le h)).trans one_mul_quantum.symm
  exact_mod_cast mul_right_cancel₀ quantum_pos.ne' hone

theorem clampToUnit_of_isNaN {bits : UInt64} (h : isNaN bits = true) : clampToUnit bits = 0 := by
  rw [clampToUnit, h, Bool.true_or, if_pos rfl]

theorem clampToUnit_zero : clampToUnit 0 = 0 := by
  have hmagnitude : magnitude 0 = 0 := rfl
  rw [clampToUnit, hmagnitude, Nat.zero_min, ite_self]

theorem clampToUnit_mono {a b : UInt64} (ha : isNaN a = false) (hb : isNaN b = false)
    (h : extended a ≤ extended b) : clampToUnit a ≤ clampToUnit b := by
  have hle := max_le_max (le_refl 0) (min_le_min (le_refl 1) h)
  rw [clamp_extended ha, clamp_extended hb, WithBot.coe_le_coe, WithTop.coe_le_coe,
    mul_le_mul_iff_left₀ quantum_pos, Nat.cast_le] at hle
  exact hle

/-- A fraction in units of `2 ^ -1074` is at least one half. -/
theorem half_le_iff (n : ℕ) : 1 / 2 ≤ (n : ℚ) * quantum ↔ one ≤ 2 * n := by
  rw [div_le_iff₀' two_pos, ← one_mul_quantum, ← mul_assoc, mul_le_mul_iff_left₀ quantum_pos]
  exact_mod_cast Iff.rfl

theorem half_le_clampToUnit {bits : UInt64} (hnan : isNaN bits = false)
    (h : ((1 / 2 : ℚ) : WithTop ℚ) ≤ extended bits) : one ≤ 2 * clampToUnit bits := by
  have hone : ((1 / 2 : ℚ) : WithTop ℚ) ≤ (1 : WithBot (WithTop ℚ)) :=
    WithBot.coe_le_coe.2 (WithTop.coe_le_coe.2 (by norm_num))
  have hle := (le_min hone h).trans (le_max_right 0 _)
  rw [clamp_extended hnan, WithBot.coe_le_coe, WithTop.coe_le_coe, half_le_iff] at hle
  exact hle

/-! ## Products -/

theorem timesFloor_mono (n : ℕ) {a b : ℕ} (h : a ≤ b) : timesFloor n a ≤ timesFloor n b :=
  Nat.div_le_div_right (round_mono (Nat.mul_le_mul_left _ h))

theorem excess_le {n j : ℕ} (h : n ≤ 2 ^ j) : excess n ≤ j - 52 := by
  obtain rfl | hn := eq_or_ne n 0
  · simp [excess]
  · have hlog : n.log2 < j + 1 :=
      (Nat.log2_lt hn).2 (h.trans_lt (Nat.pow_lt_pow_right Nat.one_lt_two j.lt_succ_self))
    unfold excess
    omega

theorem round_le_pow {n j : ℕ} (h : n ≤ 2 ^ j) : round n ≤ 2 ^ j := by
  have hpow : round (2 ^ j) = 2 ^ j := round_of_representable ⟨1, j, by omega, (one_mul _).symm⟩
  exact hpow ▸ round_mono h

/-- A product with a fraction is within the range of the exponents. -/
theorem excess_mul_le {m a j : ℕ} (hm : m ≤ 2 ^ j) (hj : j ≤ 1022) (ha : a ≤ one) :
    excess (m * a) ≤ 2044 := by
  have hle {k : ℕ} (h : a ≤ 1 <<< k) : excess (m * a) ≤ j + k - 52 := by
    rw [Nat.one_shiftLeft] at h
    exact excess_le (pow_add 2 j k ▸ Nat.mul_le_mul hm h)
  exact (hle ha).trans (by omega)

section

variable {n a j : ℕ} (hn : n ≤ 2 ^ j) (hj : j ≤ 1022)

include hn hj

theorem exists_nearestEven : ∃ x, NearestEven n x :=
  ⟨_, mul_one_mul_quantum n ▸ nearestEven_pattern (excess_mul_le hn hj (le_refl one))⟩

theorem NearestEven.number_eq_natCast {x : UInt64} (hx : NearestEven n x) :
    number x = round n := by
  rw [← mul_one_mul_quantum n] at hx
  rw [hx.number_eq_round (excess_mul_le hn hj (le_refl one)), round_mul_one,
    mul_one_mul_quantum]

theorem number_eq_round_mul (ha : a ≤ one) {x y : UInt64} (hx : NearestEven n x)
    (hy : NearestEven (number x * (a * quantum)) y) :
    number y = round (round n * a) * quantum := by
  rw [hx.number_eq_natCast hn hj, ← mul_assoc, ← Nat.cast_mul] at hy
  exact hy.number_eq_round (excess_mul_le (round_le_pow hn) hj ha)

/-- The whole number becomes the nearest number `x`, its product with the
fraction the nearest number `y`, and of `y` the whole part is taken. -/
theorem floor_eq_timesFloor (ha : a ≤ one) {x y : UInt64} (hx : NearestEven n x)
    (hy : NearestEven (number x * (a * quantum)) y) : ⌊number y⌋₊ = timesFloor n a := by
  rw [number_eq_round_mul hn hj ha hx hy, floor_mul_quantum, timesFloor]

theorem exists_nearestEven_mul (ha : a ≤ one) {x : UInt64} (hx : NearestEven n x) :
    ∃ y, NearestEven (number x * (a * quantum)) y := by
  rw [hx.number_eq_natCast hn hj, ← mul_assoc, ← Nat.cast_mul]
  exact ⟨_, nearestEven_pattern (excess_mul_le (round_le_pow hn) hj ha)⟩

end

end BountyBoard.Binary64

import BountyBoard.Proofs.Payout

/-!
# How exact a payout is

A score earns the whole part of the bounty times the score, if the product is
computed exactly. In binary64 numbers two things are rounded before the whole
part is taken, the bounty and the product, and each of them can be off by one
part in `2 ^ 53` (`round_error`). What a score earns is off by no more than both
errors together (`Approximates`). For great bounties this is more than one, and
for small ones it still is one where the product is rounded across a whole
number.

It is exact where bounty and product are numbers as they stand. Of a bounty of
up to 53 bits a score never earns too little: no whole number up to the bounty
has to be rounded, so the product cannot be rounded below its whole part, nor
above the next whole number (`timesFloor_of_le`).
-/

namespace BountyBoard

namespace Binary64

/-! ## The error of a rounding -/

/-- The part of a number that can be lost or won by rounding it. -/
def roundoff : ℚ :=
  1 / 2 ^ 53

variable {n a : ℕ}

theorem one_pos : 0 < one := by
  refine Nat.pos_of_ne_zero fun h => ?_
  have hone := one_mul_quantum
  rw [h, Nat.cast_zero, zero_mul] at hone
  exact zero_ne_one hone

/-- A number is off by at most half of the last bit that is kept. -/
theorem two_mul_error_le (n : ℕ) : 2 * |(n : ℤ) - round n| ≤ (2 ^ excess n : ℕ) := by
  have hn := Nat.div_add_mod' n (2 ^ excess n)
  have hlt := Nat.mod_lt n (Nat.two_pow_pos (excess n))
  have hdist := abs_cases ((n : ℤ) - round n)
  have hround := round_eq n
  have hupper := Nat.succ_mul (n / 2 ^ excess n) (2 ^ excess n)
  rw [Nat.succ_eq_add_one] at hupper
  obtain ⟨hs, hcase⟩ | ⟨hs, hcase⟩ := significand_cases n
  · rw [hs] at hround
    omega
  · rw [hs] at hround
    omega

theorem round_error (n : ℕ) : |(n : ℚ) - round n| ≤ n * roundoff := by
  have herror : 2 ^ 53 * |(n : ℤ) - round n| ≤ n := by
    obtain hzero | hpos := Nat.eq_zero_or_pos (excess n)
    · have hhalf := two_mul_error_le n
      rw [hzero] at hhalf
      omega
    · have hhalf := two_mul_error_le n
      have hunit := (Nat.le_div_iff_mul_le (Nat.two_pow_pos _)).1 (le_div_excess hpos)
      omega
  rw [roundoff, mul_one_div, le_div_iff₀' (by norm_num)]
  exact_mod_cast herror

theorem round_bounds (n : ℕ) :
    (1 - roundoff) * n ≤ round n ∧ (round n : ℚ) ≤ (1 + roundoff) * n := by
  obtain ⟨hlower, hupper⟩ := abs_le.1 (round_error n)
  constructor <;> linarith

/-! ## Numbers that stand as they are -/

/-- The rational number is one of the binary64 numbers. -/
def IsNumber (x : ℚ) : Prop :=
  ∃ bits, IsFinite bits ∧ number bits = x

theorem IsNumber.round_eq (h : IsNumber (n * quantum)) : round n = n := by
  obtain ⟨bits, -, hbits⟩ := h
  rw [number_eq, mul_left_inj' quantum_pos.ne'] at hbits
  have hsigned : signed bits = n := by exact_mod_cast hbits
  have hrepresentable := representable_signed bits
  rw [hsigned, Int.natAbs_natCast] at hrepresentable
  exact round_of_representable hrepresentable

theorem IsNumber.round_natCast (h : IsNumber n) : round n = n := by
  rw [← mul_one_mul_quantum n] at h
  have hround : round (n * one) = n * one := h.round_eq
  rw [round_mul_one] at hround
  exact Nat.eq_of_mul_eq_mul_right one_pos hround

theorem round_of_le (h : n ≤ 2 ^ 53) : round n = n := by
  have hrepresentable := representable_mul_pow h 0
  rw [pow_zero, mul_one] at hrepresentable
  exact round_of_representable hrepresentable

theorem representable_mul_one (h : n ≤ 2 ^ 53) : Representable (n * one) := by
  have hshift (k : ℕ) : Representable (n * 1 <<< k) := by
    rw [Nat.one_shiftLeft]
    exact representable_mul_pow h k
  exact hshift 1074

/-! ## The error of a product -/

theorem floor_mul (n a : ℕ) : ⌊(n : ℚ) * (a * quantum)⌋₊ = n * a / one := by
  rw [← mul_assoc, ← Nat.cast_mul, floor_mul_quantum]

theorem mul_div_one_le (n : ℕ) (ha : a ≤ one) : n * a / one ≤ n :=
  Nat.div_le_of_le_mul ((Nat.mul_le_mul_left n ha).trans_eq (Nat.mul_comm n one))

theorem timesFloor_of_isNumber (hn : IsNumber n) (hproduct : IsNumber (n * (a * quantum))) :
    timesFloor n a = n * a / one := by
  rw [← mul_assoc, ← Nat.cast_mul] at hproduct
  rw [timesFloor, hn.round_natCast, hproduct.round_eq]

theorem timesFloor_one (n : ℕ) : timesFloor n one = round n := by
  rw [timesFloor, round_mul_one, round_of_representable (representable_round n),
    Nat.mul_div_cancel _ one_pos]

theorem timesFloor_le (n : ℕ) (ha : a ≤ one) : timesFloor n a ≤ round n :=
  (timesFloor_mono n ha).trans_eq (timesFloor_one n)

theorem rounded_bounds (n a : ℕ) :
    (1 - roundoff) ^ 2 * (n * (a * quantum)) ≤ (round (round n * a) : ℚ) * quantum
      ∧ (round (round n * a) : ℚ) * quantum ≤ (1 + roundoff) ^ 2 * (n * (a * quantum)) := by
  obtain ⟨hlower, hupper⟩ := round_bounds n
  obtain ⟨hless, hmore⟩ := round_bounds (round n * a)
  have hminus : 0 ≤ 1 - roundoff := by
    unfold roundoff
    norm_num
  have hplus : 0 ≤ 1 + roundoff := by
    unfold roundoff
    norm_num
  have ha : (0 : ℚ) ≤ a * quantum := mul_nonneg (Nat.cast_nonneg a) quantum_pos.le
  have hq := quantum_pos.le
  push_cast at hless hmore
  constructor
  · calc (1 - roundoff) ^ 2 * (n * (a * quantum))
        = (1 - roundoff) * ((1 - roundoff) * n * (a * quantum)) := by ring
      _ ≤ (1 - roundoff) * (round n * (a * quantum)) := by gcongr
      _ = (1 - roundoff) * (round n * a) * quantum := by ring
      _ ≤ round (round n * a) * quantum := by gcongr
  · calc (round (round n * a) : ℚ) * quantum
        ≤ (1 + roundoff) * (round n * a) * quantum := by gcongr
      _ = (1 + roundoff) * (round n * (a * quantum)) := by ring
      _ ≤ (1 + roundoff) * ((1 + roundoff) * n * (a * quantum)) := by gcongr
      _ = (1 + roundoff) ^ 2 * (n * (a * quantum)) := by ring

/-- No whole number up to the first factor is lost, so the product is rounded to
one between its whole part and the next whole number. -/
theorem timesFloor_of_le (hn : n ≤ 2 ^ 53) (ha : a ≤ one) {y : UInt64}
    (hy : NearestEven (n * (a * quantum)) y) :
    timesFloor n a = if number y = (n * a / one : ℕ) + 1 then n * a / one + 1
      else n * a / one := by
  rw [← mul_assoc, ← Nat.cast_mul] at hy
  rw [hy.number_eq_round (excess_mul_le hn (by omega) ha), timesFloor, round_of_le hn]
  generalize hq : n * a / one = q
  have hle : q ≤ n := hq ▸ mul_div_one_le n ha
  have hlower : q * one ≤ round (n * a) := by
    rw [← round_of_representable (representable_mul_one (hle.trans hn))]
    exact round_mono (hq ▸ Nat.div_mul_le_self _ _)
  have hupper : round (n * a) ≤ (q + 1) * one := by
    obtain hlt | rfl := hle.lt_or_eq
    · have hproduct : n * a < (q + 1) * one :=
        (Nat.div_lt_iff_lt_mul one_pos).1 (hq ▸ Nat.lt_succ_self q)
      rw [← round_of_representable (representable_mul_one (n := q + 1) (by omega))]
      exact round_mono hproduct.le
    · calc round (q * a) ≤ round (q * one) := round_mono (Nat.mul_le_mul_left q ha)
        _ = q * one := round_of_representable (representable_mul_one hn)
        _ ≤ (q + 1) * one := Nat.mul_le_mul_right _ q.le_succ
  have hnext : (round (n * a) : ℚ) * quantum = q + 1 ↔ round (n * a) = (q + 1) * one := by
    have hwhole : ((q + 1 : ℕ) : ℚ) = ((q + 1) * one : ℕ) * quantum :=
      (mul_one_mul_quantum (q + 1)).symm
    rw [← Nat.cast_succ, hwhole, mul_left_inj' quantum_pos.ne', Nat.cast_inj]
  by_cases h : round (n * a) = (q + 1) * one
  · rw [if_pos (hnext.2 h), h, Nat.mul_div_cancel _ one_pos]
  · rw [if_neg (mt hnext.1 h)]
    exact Nat.div_eq_of_lt_le hlower (hupper.lt_of_ne h)

/-! ## Shares of a whole number -/

/-- The share `n` of a whole number `b`, compared with the whole part of the
exact product of `b` and the score. -/
structure Approximates (b : ℕ) (score : ℚ) (n : ℕ) : Prop where
  capped : n ≤ b
  lower : (1 - roundoff) ^ 2 * (b * score) < n + 1
  upper : n ≤ (1 + roundoff) ^ 2 * (b * score)
  /-- Only a product that is rounded across a whole number is not exact. Above
  `b` there is none to cross. -/
  exact_iff : ∀ x y, NearestEven b x → NearestEven (number x * score) y →
    (n = ⌊b * score⌋₊
      ↔ ⌊b * score⌋₊ ≤ number y ∧ (number y < ⌊b * score⌋₊ + 1 ∨ ⌊b * score⌋₊ = b))
  unrounded : IsNumber b → IsNumber (b * score) → n = ⌊b * score⌋₊
  nearly : b ≤ 2 ^ 53 → ∀ y, NearestEven (b * score) y →
    n = if number y = ⌊b * score⌋₊ + 1 then ⌊b * score⌋₊ + 1 else ⌊b * score⌋₊

/-- A whole part that is capped. -/
theorem min_floor_eq_iff {z : ℚ} (hz : 0 ≤ z) {m b : ℕ} (hm : m ≤ b) :
    min ⌊z⌋₊ b = m ↔ (m : ℚ) ≤ z ∧ (z < m + 1 ∨ m = b) := by
  have hle : m ≤ ⌊z⌋₊ ↔ (m : ℚ) ≤ z := Nat.le_floor_iff hz
  have hlt : ⌊z⌋₊ < m + 1 ↔ z < m + 1 := by
    rw [Nat.floor_lt hz, Nat.cast_succ]
  rw [← hle, ← hlt]
  omega

variable {b j : ℕ}

theorem lt_min_timesFloor (b : ℕ) (ha : a ≤ one) :
    (1 - roundoff) ^ 2 * (b * (a * quantum)) < (min (timesFloor b a) b : ℕ) + 1 := by
  obtain hmin | hmin := min_choice (timesFloor b a) b
  · rw [hmin, timesFloor, ← floor_mul_quantum]
    exact (rounded_bounds b a).1.trans_lt (Nat.lt_floor_add_one _)
  · have hunit : (a : ℚ) * quantum ≤ 1 := by
      rw [← one_mul_quantum]
      exact mul_le_mul_of_nonneg_right (Nat.cast_le.2 ha) quantum_pos.le
    have hsquare : (1 - roundoff) ^ 2 ≤ 1 := by
      unfold roundoff
      norm_num
    have hproduct : (0 : ℚ) ≤ b * (a * quantum) :=
      mul_nonneg b.cast_nonneg (mul_nonneg a.cast_nonneg quantum_pos.le)
    rw [hmin]
    calc (1 - roundoff) ^ 2 * (b * (a * quantum)) ≤ b * (a * quantum) :=
          mul_le_of_le_one_left hproduct hsquare
      _ ≤ b := mul_le_of_le_one_right b.cast_nonneg hunit
      _ < b + 1 := lt_add_one _

theorem min_timesFloor_le (b a : ℕ) :
    (min (timesFloor b a) b : ℕ) ≤ (1 + roundoff) ^ 2 * (b * (a * quantum)) := by
  have hnonneg : (0 : ℚ) ≤ round (round b * a) * quantum :=
    mul_nonneg (Nat.cast_nonneg _) quantum_pos.le
  calc ((min (timesFloor b a) b : ℕ) : ℚ) ≤ timesFloor b a := Nat.cast_le.2 (min_le_left _ _)
    _ ≤ round (round b * a) * quantum := by
        rw [timesFloor, ← floor_mul_quantum]
        exact Nat.floor_le hnonneg
    _ ≤ _ := (rounded_bounds b a).2

theorem approximates_min (hb : b ≤ 2 ^ j) (hj : j ≤ 1022) (ha : a ≤ one) :
    Approximates b (a * quantum) (min (timesFloor b a) b) where
  capped := min_le_right _ _
  lower := lt_min_timesFloor b ha
  upper := min_timesFloor_le b a
  exact_iff x y hx hy := by
    have hnonneg : 0 ≤ number y := by
      rw [number_eq_round_mul hb hj ha hx hy]
      exact mul_nonneg (Nat.cast_nonneg _) quantum_pos.le
    rw [floor_mul, ← floor_eq_timesFloor hb hj ha hx hy]
    exact min_floor_eq_iff hnonneg (mul_div_one_le b ha)
  unrounded hnumber hproduct := by
    rw [floor_mul, timesFloor_of_isNumber hnumber hproduct, min_eq_left (mul_div_one_le b ha)]
  nearly hfew y hy := by
    have hle : timesFloor b a ≤ b := (timesFloor_le b ha).trans_eq (round_of_le hfew)
    rw [floor_mul, min_eq_left hle, timesFloor_of_le hfew ha hy]

/-- All of `b` is its own share unless it becomes a smaller number. -/
theorem min_timesFloor_one_eq_iff (hb : b ≤ 2 ^ j) (hj : j ≤ 1022) :
    min (timesFloor b one) b = b ↔ ∀ x, NearestEven b x → (b : ℚ) ≤ number x := by
  rw [timesFloor_one, min_eq_right_iff]
  constructor
  · intro h x hx
    rw [hx.number_eq_natCast hb hj]
    exact Nat.cast_le.2 h
  · intro h
    obtain ⟨x, hx⟩ := exists_nearestEven hb hj
    have hle := h x hx
    rw [hx.number_eq_natCast hb hj] at hle
    exact Nat.cast_le.1 hle

end Binary64

/-- An amount with the raise that a score of at least one half brings. -/
def Params.raised (p : Params) (score : ℚ) (n : ℕ) : ℕ :=
  if 1 / 2 ≤ score ∧ n < p.minBounty.amount.toNat then p.minBounty.amount.toNat else n

open Binary64

namespace Task

theorem paid_eq_raised (t : Task) (p : Params) (score : ℕ) :
    t.paid p score = p.raised (score * quantum) (t.share score) := by
  rw [paid, Params.raised]
  simp only [half_le_iff]
  split
  · rename_i hhalf
    split
    · rename_i hless
      exact max_eq_right hless.2.le
    · rename_i hless
      exact max_eq_left (not_lt.1 fun h => hless ⟨hhalf, h⟩)
  · rename_i hhalf
    rw [if_neg fun h => hhalf h.1]

/-- What a payout has to do with the exact product. The score earns the whole
part of it, off by no more than two roundings, and the payout is that with the
raise at one half. The whole part is exact unless a rounding leads across a
whole number, for example where bounty and product are numbers as they are; of a
bounty of up to 53 bits it can only be one too great. A score of at least one
earns the bounty unless the number nearest to the bounty is below it. -/
theorem payout_approximates (t : Task) (p : Params) {bits : UInt64} (hnan : isNaN bits = false)
    {score : ℚ} (hscore : max 0 (min 1 (extended bits)) = (score : WithTop ℚ)) :
    ∃ n, Approximates t.bounty.amount.toNat score n
      ∧ (t.payout p bits).amount.toNat = p.raised score n
      ∧ (t.payout p bits).denom = t.bounty.denom
      ∧ (1 ≤ extended bits → (n = t.bounty.amount.toNat
        ↔ ∀ x, NearestEven t.bounty.amount.toNat x → (t.bounty.amount.toNat : ℚ) ≤ number x)) := by
  obtain rfl := clampToUnit_mul_quantum hnan hscore
  refine ⟨t.share (clampToUnit bits), ?_, ?_, t.denom_payout p bits, fun hone => ?_⟩
  · exact approximates_min t.bounty_le_pow (by omega) (clampToUnit_le_one bits)
  · rw [amount_payout, paid_eq_raised]
  · rw [clampToUnit_of_one_le hnan hone]
    exact min_timesFloor_one_eq_iff t.bounty_le_pow (by omega)

end Task

namespace Sample

/-- The pattern of one. -/
def unity : UInt64 := 0x3FF0000000000000

/-- A task with a bounty that is one more than 53 bits can hold. -/
def vast : Task :=
  { waiting with bounty := ⟨⟨9007199254740993, by decide⟩, "stake"⟩ }

theorem extended_unity : extended unity = 1 := by
  have hexponent : exponentField unity = 1023 := rfl
  have hnumber : number unity = 1 := by
    rw [number_of_fields (f := 0) hexponent rfl rfl (by omega)]
    norm_num
  rw [extended, hexponent, if_neg (by omega), hnumber]
  rfl

theorem isNumber_bounty : IsNumber bounty.amount.toNat := by
  have hexponent : exponentField 0x4097700000000000 = 1033 := rfl
  refine ⟨0x4097700000000000, ?_, ?_⟩
  · rw [IsFinite, hexponent]
    omega
  · rw [number_of_fields (f := 2093470139285504) hexponent rfl rfl (by omega), bounty]
    norm_num

end Sample

namespace Task

/-- A score of infinity is clamped to one, which earns the sample bounty of 1500. -/
theorem payout_approximates_sample :
    isNaN Sample.infinity = false
    ∧ max 0 (min 1 (extended Sample.infinity)) = ((1 : ℚ) : WithTop ℚ)
    ∧ (Sample.waiting.payout .default Sample.infinity).amount.toNat = 1500 := by
  have hnan : isNaN Sample.infinity = false := rfl
  have hscore : max 0 (min 1 (extended Sample.infinity)) = ((1 : ℚ) : WithTop ℚ) :=
    clamp_of_one_le le_top
  obtain ⟨n, happrox, hamount, -⟩ := payout_approximates Sample.waiting .default hnan hscore
  have hn := happrox.unrounded Sample.isNumber_bounty
    ((mul_one (_ : ℚ)).symm ▸ Sample.isNumber_bounty)
  rw [mul_one, Nat.floor_natCast] at hn
  refine ⟨hnan, hscore, ?_⟩
  rw [hamount, hn]
  exact if_neg fun h => absurd h.2 (by decide)

/-- One of the bounty is lost when it is made a number, although the score is one. -/
theorem payout_inexact :
    isNaN Sample.unity = false
    ∧ max 0 (min 1 (extended Sample.unity)) = ((1 : ℚ) : WithTop ℚ)
    ∧ Params.default.minBounty.amount ≤ Sample.vast.bounty.amount
    ∧ (Sample.vast.payout .default Sample.unity).amount.toNat = 9007199254740992
    ∧ Params.default.raised 1 ⌊(Sample.vast.bounty.amount.toNat : ℚ) * 1⌋₊
      = 9007199254740993 := by
  have hclamp : clampToUnit Sample.unity = one :=
    clampToUnit_of_one_le rfl Sample.extended_unity.ge
  have hround : Binary64.round 9007199254740993 = 9007199254740992 := by decide
  refine ⟨rfl, clamp_of_one_le Sample.extended_unity.ge, by decide, ?_, ?_⟩
  · rw [amount_payout, hclamp, paid_eq_raised, share, timesFloor_one, Sample.vast, hround]
    exact if_neg fun h => absurd h.2 (by decide)
  · rw [mul_one, Nat.floor_natCast]
    exact if_neg fun h => absurd h.2 (by decide)

end Task

end BountyBoard

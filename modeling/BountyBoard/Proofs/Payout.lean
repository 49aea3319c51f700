import BountyBoard.Proofs.Binary64
import BountyBoard.Proofs.History
import BountyBoard.Reward.Payout

/-!
# Payouts in bounds

A payout depends on its score alone (`amount_payout`): the score earns a
`share` of the bounty, and from one half on it is `paid` no less than the least
bounty. A greater score earns no smaller share, because neither rounding nor
the cap turns the order around, and the raise at one half only adds to what is
paid from there on (`paid_mono`).

`Converts` states the conversions of the protocol in rational numbers, which
know nothing of units and significant bits, and the share is what they give
(`share_eq`).
-/

namespace BountyBoard.Task

open Binary64

section

variable (t : Task) (p : Params)

/-- What a score in units of `2 ^ -1074` earns before the least bounty is looked at. -/
def share (score : ℕ) : ℕ :=
  min (timesFloor t.bounty.amount.toNat score) t.bounty.amount.toNat

/-- What such a score is paid. -/
def paid (score : ℕ) : ℕ :=
  if one ≤ 2 * score then max (t.share score) p.minBounty.amount.toNat else t.share score

theorem amount_payout (bits : UInt64) :
    (t.payout p bits).amount.toNat = t.paid p (clampToUnit bits) := by
  rw [payout, paid]
  by_cases hhalf : one ≤ 2 * clampToUnit bits
  · by_cases hmin : t.share (clampToUnit bits) < p.minBounty.amount.toNat
    · rw [if_pos ⟨hhalf, hmin⟩, if_pos hhalf, max_eq_right hmin.le]
    · rw [if_neg (fun h => hmin h.2), if_pos hhalf, max_eq_left (not_lt.1 hmin)]
      rfl
  · rw [if_neg (fun h => hhalf h.1), if_neg hhalf]
    rfl

theorem denom_payout (bits : UInt64) : (t.payout p bits).denom = t.bounty.denom := by
  rw [payout]
  split <;> rfl

/-- The payout depends on no more of a pattern than the score. -/
theorem payout_congr {a b : UInt64} (h : clampToUnit a = clampToUnit b) :
    t.payout p a = t.payout p b := by
  have hamount : (t.payout p a).amount = (t.payout p b).amount :=
    Amount.ext (by rw [amount_payout, amount_payout, h])
  have hdenom : (t.payout p a).denom = (t.payout p b).denom := by
    rw [denom_payout, denom_payout]
  show Coin.mk (t.payout p a).amount (t.payout p a).denom = _
  rw [hamount, hdenom]

theorem share_mono {a b : ℕ} (h : a ≤ b) : t.share a ≤ t.share b :=
  min_le_min_right _ (timesFloor_mono _ h)

theorem share_le (score : ℕ) : t.share score ≤ t.bounty.amount.toNat :=
  min_le_right _ _

/-- The raise at one half does not overtake what a greater score is paid. -/
theorem paid_mono {a b : ℕ} (h : a ≤ b) : t.paid p a ≤ t.paid p b := by
  have hshare := t.share_mono h
  rw [paid, paid]
  split
  · rw [if_pos (by omega)]
    exact max_le_max_right _ hshare
  · split
    · exact le_max_of_le_left hshare
    · exact hshare

theorem paid_le (h : p.minBounty.amount ≤ t.bounty.amount) (score : ℕ) :
    t.paid p score ≤ t.bounty.amount.toNat := by
  rw [paid]
  split
  · exact max_le (t.share_le score) h
  · exact t.share_le score

theorem le_paid {score : ℕ} (h : one ≤ 2 * score) : p.minBounty.amount.toNat ≤ t.paid p score := by
  rw [paid, if_pos h]
  exact le_max_right _ _

/-- The conversions from a bounty and a score between zero and one to a whole
number: the bounty becomes the nearest number `x`, the product of `x` and the
score becomes the nearest number `y`, and `y` its whole part or, beyond that,
the greatest amount. -/
def Converts (score : ℚ) (n : ℕ) : Prop :=
  ∃ x y, NearestEven t.bounty.amount.toNat x ∧ NearestEven (number x * score) y
    ∧ n = min ⌊number y⌋₊ (Amount.size - 1)

theorem bounty_le_pow : t.bounty.amount.toNat ≤ 2 ^ 128 := by
  have hlt := t.bounty.amount.isLt
  unfold Amount.size at hlt
  omega

theorem exists_converts {score : ℕ} (h : score ≤ one) : ∃ n, t.Converts (score * quantum) n := by
  obtain ⟨x, hx⟩ := exists_nearestEven t.bounty_le_pow (by omega)
  obtain ⟨y, hy⟩ := exists_nearestEven_mul t.bounty_le_pow (by omega) h hx
  exact ⟨_, x, y, hx, hy, rfl⟩

/-- A bounty is an amount, so it does not matter whether the product is brought
into the range of amounts before it is capped. -/
theorem share_eq {score n : ℕ} (h : score ≤ one) (hn : t.Converts (score * quantum) n) :
    t.share score = min n t.bounty.amount.toNat := by
  obtain ⟨x, y, hx, hy, rfl⟩ := hn
  have hlt := t.bounty.amount.isLt
  rw [share, floor_eq_timesFloor t.bounty_le_pow (by omega) h hx hy]
  omega

end

/-- Payouts, in the numbers that the patterns of the scores stand for. A
greater score is paid no less, and NaN is paid what zero is. No payout is
above a bounty of at least the least one, nor, from one half on, below the
least one. In between the conversions are those of binary64. -/
theorem payout_bounds (t : Task) (p : Params) :
    (∀ a b, isNaN a = false → isNaN b = false → extended a ≤ extended b →
      (t.payout p a).amount ≤ (t.payout p b).amount)
    ∧ (∀ a, isNaN a = true → t.payout p a = t.payout p 0)
    ∧ (p.minBounty.amount ≤ t.bounty.amount →
      (∀ a, (t.payout p a).amount ≤ t.bounty.amount)
      ∧ ∀ a, isNaN a = false → ((1 / 2 : ℚ) : WithTop ℚ) ≤ extended a →
        p.minBounty.amount ≤ (t.payout p a).amount)
    ∧ ∀ a, (t.payout p a).denom = t.bounty.denom
      ∧ (isNaN a = false → ∃ score : ℚ, max 0 (min 1 (extended a)) = (score : WithTop ℚ)
        ∧ (∃ n, t.Converts score n)
        ∧ ∀ n, t.Converts score n → (t.payout p a).amount.toNat =
          if 1 / 2 ≤ score then max (min n t.bounty.amount.toNat) p.minBounty.amount.toNat
          else min n t.bounty.amount.toNat) := by
  refine ⟨fun a b ha hb h => ?_, fun a ha => ?_, fun hmin => ⟨fun a => ?_, fun a ha h => ?_⟩,
    fun a => ⟨t.denom_payout p a, fun ha => ?_⟩⟩
  · rw [Amount.le_def, amount_payout, amount_payout]
    exact t.paid_mono p (clampToUnit_mono ha hb h)
  · exact t.payout_congr p ((clampToUnit_of_isNaN ha).trans clampToUnit_zero.symm)
  · rw [Amount.le_def, amount_payout]
    exact t.paid_le p hmin _
  · rw [Amount.le_def, amount_payout]
    exact t.le_paid p (half_le_clampToUnit ha h)
  · have hle := clampToUnit_le_one a
    refine ⟨_, clamp_extended ha, t.exists_converts hle, fun n hn => ?_⟩
    rw [amount_payout, paid, t.share_eq hle hn]
    simp only [half_le_iff]

end BountyBoard.Task

namespace BountyBoard

namespace Sample

/-- The pattern of one half. -/
def half : UInt64 := 0x3FE0000000000000

/-- The pattern of infinity. -/
def infinity : UInt64 := 0x7FF0000000000000

/-- One of the patterns of NaN. -/
def nan : UInt64 := 0x7FF8000000000000

theorem extended_half : Binary64.extended half = ((1 / 2 : ℚ) : WithTop ℚ) := by
  have hexponent : Binary64.exponentField half = 1022 := rfl
  have hnumber : Binary64.number half = 1 / 2 := by
    rw [Binary64.number_of_fields (f := 0) hexponent rfl rfl (by omega)]
    norm_num
  rw [Binary64.extended, hexponent, if_neg (by omega), hnumber]

end Sample

namespace Task

open Binary64

/-- Half of the sample bounty of 1500 is raised to the least bounty. -/
theorem payout_bounds_sample :
    (Sample.waiting.payout .default Sample.half).amount
      ≤ (Sample.waiting.payout .default Sample.infinity).amount
    ∧ Sample.waiting.payout .default Sample.nan = Sample.waiting.payout .default 0
    ∧ Params.default.minBounty.amount ≤ Sample.waiting.bounty.amount
    ∧ (Sample.waiting.payout .default Sample.infinity).amount ≤ Sample.waiting.bounty.amount
    ∧ Params.default.minBounty.amount ≤ (Sample.waiting.payout .default Sample.half).amount
    ∧ ∃ n, Sample.waiting.Converts (1 / 2) n
      ∧ (Sample.waiting.payout .default Sample.half).amount.toNat = max (min n 1500) 1000 := by
  have hhalf : isNaN Sample.half = false := rfl
  have hle : extended Sample.half ≤ extended Sample.infinity := le_top
  have hmin : Params.default.minBounty.amount ≤ Sample.waiting.bounty.amount := by decide
  obtain ⟨hmono, hnan, hbounds, hconvert⟩ := payout_bounds Sample.waiting .default
  obtain ⟨hupper, hlower⟩ := hbounds hmin
  refine ⟨hmono _ _ hhalf rfl hle, hnan _ rfl, hmin, hupper _,
    hlower _ hhalf Sample.extended_half.ge, ?_⟩
  obtain ⟨score, hscore, ⟨n, hn⟩, hamount⟩ := (hconvert Sample.half).2 hhalf
  have hclamp : max 0 (min 1 (extended Sample.half)) = ((1 / 2 : ℚ) : WithTop ℚ) := by
    have hunit : max 0 (min 1 (1 / 2 : ℚ)) = 1 / 2 := by norm_num
    rw [Sample.extended_half]
    exact congrArg (fun x : ℚ => ((x : WithTop ℚ) : WithBot (WithTop ℚ))) hunit
  obtain rfl : 1 / 2 = score :=
    WithTop.coe_injective (WithBot.coe_injective (hclamp.symm.trans hscore))
  exact ⟨n, hn, (hamount n hn).trans (if_pos le_rfl)⟩

end Task

end BountyBoard

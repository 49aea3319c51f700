import BountyBoard.Binary64
import BountyBoard.Task

/-!
# Payout by score

How much of its bounty a task pays for work of a given quality. The score
is a binary64 number, and the arithmetic is that of binary64 numbers.
-/

namespace BountyBoard.Task

/-- The bounty times the score, rounded down and capped by the bounty. A
score of at least one half pays no less than the least bounty. -/
def payout (t : Task) (p : Params) (scoreBits : UInt64) : Coin :=
  let score := Binary64.clampToUnit scoreBits
  let bounty := t.bounty.amount
  let product := Binary64.timesFloor bounty.toNat score
  let capped : Amount :=
    ⟨min product bounty.toNat, Nat.lt_of_le_of_lt (Nat.min_le_right _ _) bounty.isLt⟩
  if Binary64.one ≤ 2 * score ∧ capped < p.minBounty.amount then
    ⟨p.minBounty.amount, t.bounty.denom⟩
  else ⟨capped, t.bounty.denom⟩

end BountyBoard.Task

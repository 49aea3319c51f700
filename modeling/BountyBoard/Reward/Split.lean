import BountyBoard.Refusal

/-!
# Splitting a reward

A reward shared out by weights. Every share is rounded down, a share of
nothing is left out, and what rounding leaves over is not shared.
-/

namespace BountyBoard.Reward

def totalWeight : List Count → Nat
  | [] => 0
  | weight :: rest => weight.toNat + totalWeight rest

def share (r : Reward) (recipient : String) (amount : Amount) : Reward :=
  { r with claimant := recipient, amount := ⟨amount, r.amount.denom⟩ }

/-- The shares of the recipients in their order. The reward times a weight
has to fit the range of an amount. -/
def shares (r : Reward) (total : Nat) : List (String × Count) → Except Refusal (List Reward)
  | [] => .ok []
  | (recipient, weight) :: rest =>
    if h : r.amount.amount.toNat * weight.toNat < Amount.size then do
      let others ← shares r total rest
      let amount : Amount :=
        ⟨r.amount.amount.toNat * weight.toNat / total,
          Nat.lt_of_le_of_lt (Nat.div_le_self _ _) h⟩
      if amount.toNat = 0 then return others
      else return r.share recipient amount :: others
    else .error .splitOverflow

/-- Splits a reward among recipients by weight. Without any weight there is
nothing to share out. -/
def split (r : Reward) (recipients : List String) (weights : List Count) :
    Except Refusal (List Reward) :=
  if recipients.length ≠ weights.length then
    .error (.splitMismatch recipients.length weights.length)
  else if totalWeight weights = 0 then .ok []
  else r.shares (totalWeight weights) (recipients.zip weights)

end BountyBoard.Reward

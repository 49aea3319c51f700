import BountyBoard.Task

/-!
# Rewards

A reward is what an approved task paid. It is written once, in the step
that approves the task.
-/

namespace BountyBoard

/-- What an approved task paid to whom. -/
structure Reward where
  taskId : TaskId
  claimant : String
  amount : Coin
  timestamp : Time
  /-- Names the approval that the reward comes from. -/
  txHash : String
deriving Repr, DecidableEq

namespace Reward

/-- How a reward can fail to be the one its task calls for. -/
inductive Mismatch where
  | noClaimant
  | otherTask (rewarded task : TaskId)
  | otherClaimant (claimant : String)
  | otherAmount (amount bounty : Coin)
deriving Repr, DecidableEq

def Mismatch.message : Mismatch → String
  | .noClaimant => "submitted task has no claimant"
  | .otherTask rewarded task =>
      "reward task id " ++ Text.natural rewarded.toNat ++ " does not match task "
        ++ Text.natural task.toNat
  | .otherClaimant claimant => "reward claimant " ++ claimant ++ " is not the task claimant"
  | .otherAmount amount bounty =>
      "reward amount " ++ amount.text ++ " does not equal bounty " ++ bounty.text

end Reward

end BountyBoard

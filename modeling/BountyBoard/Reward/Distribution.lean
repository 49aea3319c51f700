import BountyBoard.Refusal

/-!
# Paying a task's reward

The reward that an approved task calls for: its own id, its claimant and
its whole bounty.
-/

namespace BountyBoard.Reward

/-- Whether the reward is the one that the task, as it stands once approved,
calls for. -/
def check (t : Task) (r : Reward) : Except Refusal Unit := do
  ensure (t.status = .approved) (.wrongStatus .approved t.status)
  ensure (r.taskId = t.id) (.badReward (.otherTask r.taskId t.id))
  ensure (t.isClaimedBy r.claimant) (.badReward (.otherClaimant r.claimant))
  ensure (r.amount = t.bounty) (.badReward (.otherAmount r.amount t.bounty))

/-- A submission that has enough approvals to count as approved by itself.
The approval itself is a step of its own. -/
def approvesItself (t : Task) (p : Params) (e : Evidence) (approvals : Count) : Bool :=
  0 < p.autoApproveThreshold && t.status == .submitted && (e.fault? p).isNone
    && p.autoApproveThreshold ≤ approvals

end BountyBoard.Reward

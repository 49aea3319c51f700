import BountyBoard.Reward

/-!
# Messages

What a principal can ask the board to do, and what the board answers. The
sender is no part of a message and travels beside it.
-/

namespace BountyBoard

/-- The new values of the fields that a creator can edit. -/
structure Revision where
  title : String
  description : String
  bounty : Coin
  status : Status
  claimant : Option String
  finding : Option Finding
  approver : Option String
deriving Repr, DecidableEq

/-- A request to change the board. -/
inductive Message where
  | create (title description : String) (bounty : Coin)
  /-- Replace the fields of a task and move it to a new status. -/
  | update (id : TaskId) (revision : Revision)
  /-- Remove an open or a closed task. -/
  | delete (id : TaskId)
  | claim (id : TaskId)
  | submit (id : TaskId) (evidence : Evidence)
  /-- Approve a submission and pay its bounty. -/
  | approve (id : TaskId) (txHash : String)
  | reject (id : TaskId) (reason : String)
  | setParams (params : Params)
deriving Repr, DecidableEq

def Message.name : Message → String
  | create .. => "create_task"
  | update .. => "update_task"
  | delete .. => "delete_task"
  | claim .. => "claim_task"
  | submit .. => "submit_task"
  | approve .. => "approve_task"
  | reject .. => "reject_task"
  | setParams .. => "update_params"

/-- What an accepted message brought about. -/
inductive Response where
  | created (id : TaskId)
  | updated (id : TaskId) (status : Status)
  | deleted (id : TaskId)
  | approved (reward : Reward)
  | paramsUpdated
deriving Repr, DecidableEq

end BountyBoard

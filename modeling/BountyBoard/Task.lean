import BountyBoard.Evidence
import BountyBoard.Status

/-!
# Tasks

A task is a piece of work that somebody will pay for. It is kept and
replaced as a whole.
-/

namespace BountyBoard

/-- A piece of work with a bounty on it. -/
structure Task where
  id : TaskId
  /-- Who offers the bounty. -/
  creator : String
  title : String
  description : String
  bounty : Coin
  status : Status
  /-- Who works on the task. -/
  claimant : Option String
  finding : Option Finding
  /-- Who approved the work. -/
  approver : Option String
  createdAt : Time
  updatedAt : Time
deriving Repr, DecidableEq

namespace Task

/-- A new task, open to everyone. -/
def posted (id : TaskId) (creator title description : String) (bounty : Coin) (now : Time) :
    Task where
  id := id
  creator := creator
  title := title
  description := description
  bounty := bounty
  status := .opened
  claimant := none
  finding := none
  approver := none
  createdAt := now
  updatedAt := now

/-- Somebody works on the task, and it is this principal. -/
def isClaimedBy (t : Task) (who : String) : Bool :=
  t.claimant == some who

end Task

end BountyBoard

import BountyBoard.Coin

/-!
# Commands

What the command line can be told to do.
-/

namespace BountyBoard.CommandLine

inductive Command where
  /-- Starts a board from a snapshot in a file, or from the default one. -/
  | init (authority : String) (genesis : Option String)
  | address (seed : String)
  | create (title description : String) (bounty : Coin)
  /-- Edits a task and moves it to a new status. What is not given stays. -/
  | update (id : TaskId) (status : String) (title description : Option String)
      (bounty : Option Coin) (clearClaim : Bool)
  | delete (id : TaskId)
  | claim (id : TaskId)
  | submit (id : TaskId) (hash kind : String) (data : Option String)
  | approve (id : TaskId)
  | reject (id : TaskId) (reason : String)
  | showTask (id : TaskId)
  | list (creator claimant approver status : Option String) (minBounty maxBounty : Amount)
      (sort : Option String) (descending : Bool)
  | reward (id : TaskId)
  | rewards (claimant : Option String)
  | params
  | setParams (file : String)
  /-- Prints the snapshot of the board, or writes it to a file. -/
  | exportTo (out : Option String)
deriving Repr, DecidableEq

/-- What every command can be given beside its own arguments. -/
structure Settings where
  dataDir : String
  sender : Option String
  /-- The time to act at, in place of the clock's. -/
  now : Option Time
deriving Repr, DecidableEq

end BountyBoard.CommandLine

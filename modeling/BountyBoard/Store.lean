import BountyBoard.Params
import BountyBoard.Refusal
import BountyBoard.Table

/-!
# The store

Everything the board keeps, and the one way to change it: a batch of writes
that is committed as a whole. Within a batch the rows are put in the order
given, so the last of several rows with one id stands, and removals come
after them.
-/

namespace BountyBoard

/-- Everything the board keeps. -/
structure Store where
  tasks : Table Task.id
  rewards : Table Reward.taskId
  params : Option Params
  nextId : TaskId
  /-- Who may replace the parameters. -/
  authority : Option String
deriving Repr, DecidableEq

/-- Writes that are committed together. -/
structure Batch where
  tasks : List Task := []
  removedTasks : List TaskId := []
  rewards : List Reward := []
  params : Option Params := none
  nextId : Option TaskId := none
  authority : Option String := none
deriving Repr, DecidableEq

def Batch.isEmpty (b : Batch) : Bool :=
  b.tasks.isEmpty && b.removedTasks.isEmpty && b.rewards.isEmpty
    && b.params.isNone && b.nextId.isNone && b.authority.isNone

namespace Store

/-- A store that nothing was ever written to. -/
def empty : Store where
  tasks := Table.empty
  rewards := Table.empty
  params := none
  nextId := 0
  authority := none

def commit (s : Store) (b : Batch) : Store where
  tasks := b.removedTasks.foldl Table.erase (b.tasks.foldl Table.insert s.tasks)
  rewards := b.rewards.foldl Table.insert s.rewards
  params := b.params.or s.params
  nextId := b.nextId.getD s.nextId
  authority := b.authority.or s.authority

/-- The task with this id, which has to exist. -/
def task (s : Store) (id : TaskId) : Except Refusal Task :=
  match s.tasks.get? id with
  | some t => .ok t
  | none => .error (.noTask id)

/-- The reward for the task with this id, which has to exist. -/
def reward (s : Store) (id : TaskId) : Except Refusal Reward :=
  match s.rewards.get? id with
  | some r => .ok r
  | none => .error (.noReward id)

def requireParams (s : Store) : Except Refusal Params :=
  match s.params with
  | some p => .ok p
  | none => .error .noParams

/-- Hands the rows to a visitor one by one until it says to stop. The
visitor answers with its next state and whether to go on. -/
def visitRows {α σ : Type} (visit : σ → α → σ × Bool) : σ → List α → σ
  | state, [] => state
  | state, a :: rest =>
    match visit state a with
    | (next, true) => visitRows visit next rest
    | (next, false) => next

/-- Hands the tasks to a visitor in ascending order of ids. -/
def walk {σ : Type} (s : Store) (visit : σ → Task → σ × Bool) (start : σ) : σ :=
  visitRows visit start s.tasks.rows

/-- The rewards paid to one principal, in ascending order of ids. -/
def rewardsOf (s : Store) (claimant : String) : Except Refusal (List Reward) := do
  let claimant ← (Address.canonical claimant).mapError Refusal.badAddress
  return s.rewards.rows.filter fun r => r.claimant == claimant

theorem commit_empty (s : Store) : s.commit {} = s := rfl

end Store

end BountyBoard

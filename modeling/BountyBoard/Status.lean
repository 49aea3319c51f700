/-!
# The life of a task

The seven states of a task and the table of the steps between them. A task
is opened, claimed by a worker, submitted with evidence, then approved or
rejected; a rejected task can be claimed again or opened again, and open
and approved tasks can be closed. No other step exists, and nothing leads
out of `closed` (`successors_closed`) or back to `undefined`
(`not_canBecome_undefined`).
-/

namespace BountyBoard

/-- Where a task stands. Only a task that does not exist yet is `undefined`. -/
inductive Status where
  | undefined
  | opened
  | claimed
  | submitted
  | approved
  | rejected
  | closed
deriving Repr, DecidableEq

namespace Status

/-- Every status, in the order of the life of a task. -/
def all : List Status :=
  [undefined, opened, claimed, submitted, approved, rejected, closed]

/-- The place of a status in that order. -/
def number : Status → Nat
  | undefined => 0
  | opened => 1
  | claimed => 2
  | submitted => 3
  | approved => 4
  | rejected => 5
  | closed => 6

/-- The name of a status in messages. -/
def name : Status → String
  | undefined => "undefined"
  | opened => "open"
  | claimed => "claimed"
  | submitted => "submitted"
  | approved => "approved"
  | rejected => "rejected"
  | closed => "closed"

/-- The status of a name in any mix of upper and lower ASCII case. A name
of no status is `undefined`. -/
def ofName (s : String) : Status :=
  let lower := String.ofList (s.toList.map Char.toLower)
  (all.find? fun status => status.name == lower).getD undefined

def ofNumber? (n : Nat) : Option Status :=
  all[n]?

/-- Every step from one status to another. -/
def edges : List (Status × Status) := [
  (undefined, opened),
  (opened, claimed),
  (opened, closed),
  (claimed, submitted),
  (claimed, opened),
  (submitted, approved),
  (submitted, rejected),
  (rejected, claimed),
  (rejected, opened),
  (approved, closed)]

/-- The table has a step from the one status to the other. -/
def canBecome (source target : Status) : Bool :=
  edges.contains (source, target)

/-- The statuses one step away, in the order of the table. -/
def successors (source : Status) : List Status :=
  (edges.filter fun edge => edge.1 == source).map (·.2)

theorem mem_successors {source target : Status} :
    target ∈ source.successors ↔ source.canBecome target = true := by
  cases source <;> cases target <;> decide

theorem successors_closed : successors closed = [] := rfl

theorem not_canBecome_undefined (source : Status) : source.canBecome undefined = false := by
  cases source <;> rfl

theorem not_canBecome_self (status : Status) : status.canBecome status = false := by
  cases status <;> rfl

theorem ofNumber?_number (status : Status) : ofNumber? status.number = some status := by
  cases status <;> rfl

end Status

end BountyBoard

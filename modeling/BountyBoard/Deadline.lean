import BountyBoard.Task

/-!
# Deadlines

No deadline is kept anywhere: a task keeps its status when one passes, and
whoever acts next finds out. A deadline has passed when the time is later
than a reference time plus a duration. Both are held in 64 bits with a
sign, so a longer duration counts as the longest such time, and so does a
sum beyond it.
-/

namespace BountyBoard

def latestTime : Int :=
  Int64.maxValue.toInt

/-- A duration has gone by since a reference time. A duration of zero never
goes by. -/
def pastDeadline (now reference : Time) (duration : Count) : Bool :=
  duration ≠ 0
    && min (reference.toInt + min (duration.toNat : Int) latestTime) latestTime < now.toInt

namespace Task

def expired (p : Params) (t : Task) (now : Time) : Bool :=
  pastDeadline now t.createdAt p.taskExpiry

/-- It is too late for the claimant to submit. A claim sets the time of the
last change, which the duration runs from. -/
def claimExpired (p : Params) (t : Task) (now : Time) : Bool :=
  t.claimant.isSome && pastDeadline now t.updatedAt p.claimDeadline

/-- It is too late for the creator to review. A submission sets the time of
the last change, which the duration runs from. -/
def reviewExpired (p : Params) (t : Task) (now : Time) : Bool :=
  t.claimant.isSome && pastDeadline now t.updatedAt p.submissionDeadline

end Task

end BountyBoard

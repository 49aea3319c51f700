import BountyBoard.Deadline
import BountyBoard.Message
import BountyBoard.Reward.Distribution
import BountyBoard.Store

/-!
# Acting on the board

Which messages are accepted, and what they write. Each message has its own
guards, checked in a fixed order: the sender's address, the task, its
status, the sender's role, then the parameters with their deadlines, and
last the rules for the task as it would stand. A message that passes them
all yields an `Effect`, the writes as data together with the answer, and
`Store.apply` commits it. A message that is refused writes nothing.
-/

namespace BountyBoard

/-- What an accepted message writes and answers. -/
structure Effect where
  writes : Batch
  response : Response
deriving Repr, DecidableEq

namespace Store

/-- The address of a principal that acts. -/
def actor (who : String) : Except Refusal String :=
  (Address.canonical who).mapError Refusal.badAddress

def requireStatus (t : Task) (expected : Status) : Except Refusal Unit :=
  ensure (t.status = expected) (.wrongStatus expected t.status)

def requireCreator (t : Task) (who : String) : Except Refusal Unit :=
  ensure (t.creator = who) .notCreator

def requireValid (p : Params) (t : Task) : Except Refusal Unit :=
  refuseIf (t.fault? p) Refusal.badTask

/-- The id after this one. The last id of the range is never given out. -/
def idAfter (id : TaskId) : Except Refusal TaskId :=
  if id.toNat + 1 < UInt64.size then .ok (id + 1) else .error .idsExhausted

/-! ## The creator -/

/-- Posts a new task under the next id. The sender is its creator. -/
def create (s : Store) (sender title description : String) (bounty : Coin) (now : Time) :
    Except Refusal Effect := do
  let creator ← actor sender
  let p ← s.requireParams
  let t := Task.posted s.nextId creator title description bounty now
  requireValid p t
  let next ← idAfter s.nextId
  return { writes := { tasks := [t], nextId := some next }, response := .created s.nextId }

/-- A task with the values of a revision. Id, creator and time of creation stay. -/
def revise (t : Task) (r : Revision) (now : Time) : Task where
  id := t.id
  creator := t.creator
  title := r.title
  description := r.description
  bounty := r.bounty
  status := r.status
  claimant := r.claimant
  finding := r.finding
  approver := r.approver
  createdAt := t.createdAt
  updatedAt := now

/-- Revises a task for its creator. The new status has to be one that the old
one can become, other than approved. -/
def update (s : Store) (id : TaskId) (sender : String) (r : Revision) (now : Time) :
    Except Refusal Effect := do
  let creator ← actor sender
  let t ← s.task id
  requireCreator t creator
  let p ← s.requireParams
  ensure (r.status ≠ .approved) .approvalByUpdate
  ensure (t.status.canBecome r.status) (.badTransition t.status r.status)
  let revised := revise t r now
  requireValid p revised
  return { writes := { tasks := [revised] }, response := .updated id r.status }

/-- Removes an open or closed task for its creator. -/
def delete (s : Store) (id : TaskId) (sender : String) : Except Refusal Effect := do
  let creator ← actor sender
  let t ← s.task id
  requireCreator t creator
  ensure (t.status = .opened ∨ t.status = .closed) (.undeletable t.status)
  return { writes := { removedTasks := [id] }, response := .deleted id }

/-! ## The way of a task -/

/-- Gives an open task to the sender, who must not be its creator. -/
def claim (s : Store) (id : TaskId) (sender : String) (now : Time) :
    Except Refusal Effect := do
  let claimant ← actor sender
  let t ← s.task id
  requireStatus t .opened
  ensure (t.creator ≠ claimant) .claimByCreator
  ensure (t.claimant = none) .alreadyClaimed
  let p ← s.requireParams
  ensure (t.expired p now = false) .taskExpired
  let claimed := { t with status := .claimed, claimant := some claimant, updatedAt := now }
  requireValid p claimed
  return { writes := { tasks := [claimed] }, response := .updated id .claimed }

/-- Hands in evidence for a claimed task, which only its claimant can do. -/
def submit (s : Store) (id : TaskId) (sender : String) (e : Evidence) (now : Time) :
    Except Refusal Effect := do
  let claimant ← actor sender
  let t ← s.task id
  requireStatus t .claimed
  ensure (t.isClaimedBy claimant) .notClaimant
  let p ← s.requireParams
  refuseIf (e.fault? p) Refusal.badEvidence
  ensure (t.claimExpired p now = false) .claimExpired
  let submitted :=
    { t with status := .submitted, finding := some (.submitted e), updatedAt := now }
  requireValid p submitted
  return { writes := { tasks := [submitted] }, response := .updated id .submitted }

/-- The claimant of a task, who has to be there to be paid. -/
def payee (t : Task) : Except Refusal String :=
  match t.claimant with
  | some claimant => .ok claimant
  | none => .error (.badReward .noClaimant)

/-- Accepts the evidence for a task and pays the bounty to its claimant. The
task and its one reward are written together. -/
def approve (s : Store) (id : TaskId) (sender txHash : String) (now : Time) :
    Except Refusal Effect := do
  let approver ← actor sender
  let t ← s.task id
  requireStatus t .submitted
  requireCreator t approver
  let p ← s.requireParams
  ensure (t.reviewExpired p now = false) .reviewExpired
  ensure (s.rewards.contains id = false) (.alreadyRewarded id)
  let claimant ← payee t
  let approved := { t with status := .approved, approver := some approver, updatedAt := now }
  let r : Reward :=
    { taskId := id, claimant := claimant, amount := t.bounty, timestamp := now, txHash := txHash }
  Reward.check approved r
  requireValid p approved
  return { writes := { tasks := [approved], rewards := [r] }, response := .approved r }

/-- Turns the evidence for a task down, with a reason in its place. The
claimant stays. -/
def reject (s : Store) (id : TaskId) (sender reason : String) (now : Time) :
    Except Refusal Effect := do
  let rejecter ← actor sender
  let t ← s.task id
  requireStatus t .submitted
  requireCreator t rejecter
  ensure (Text.isBlankText reason = false) .blankReason
  let p ← s.requireParams
  ensure (t.reviewExpired p now = false) .reviewExpired
  let rejected :=
    { t with status := .rejected, finding := some (.rejected reason), updatedAt := now }
  requireValid p rejected
  return { writes := { tasks := [rejected] }, response := .updated id .rejected }

/-! ## The authority -/

/-- Replaces the parameters. `authority` is who may do so. -/
def setParams (authority sender : String) (p : Params) : Except Refusal Effect := do
  let who ← actor sender
  ensure (who = authority) .notAuthority
  refuseIf p.fault? Refusal.badParams
  return { writes := { params := some p }, response := .paramsUpdated }

/-! ## Messages -/

/-- What a message comes to, before anything is written. -/
def effect (s : Store) (authority sender : String) (m : Message) (now : Time) :
    Except Refusal Effect :=
  match m with
  | .create title description bounty => s.create sender title description bounty now
  | .update id revision => s.update id sender revision now
  | .delete id => s.delete id sender
  | .claim id => s.claim id sender now
  | .submit id evidence => s.submit id sender evidence now
  | .approve id txHash => s.approve id sender txHash now
  | .reject id reason => s.reject id sender reason now
  | .setParams params => setParams authority sender params

/-- The store after an accepted message, and the answer. -/
def apply (s : Store) (authority sender : String) (m : Message) (now : Time) :
    Except Refusal (Store × Response) :=
  (s.effect authority sender m now).map fun e => (s.commit e.writes, e.response)

/-- The store after a message, accepted or not. -/
def after (s : Store) (authority sender : String) (m : Message) (now : Time) : Store :=
  match s.apply authority sender m now with
  | .ok (next, _) => next
  | .error _ => s

end Store

end BountyBoard

import BountyBoard.Store

/-!
# Snapshots

The parameters, the tasks and the next id of a board, taken out of one
store and put into another that is still empty. Rewards stay behind. A
snapshot is put in as it is, each task with its own id, status and times,
so it is looked over first.
-/

namespace BountyBoard

/-- The state of a board, to start another one from. -/
structure Snapshot where
  params : Params
  tasks : List Task
  /-- The id of the next task to be created, above the ids of all tasks. -/
  nextId : TaskId
deriving Repr, DecidableEq

namespace Snapshot

/-- A board with the default parameters and no tasks. -/
def default : Snapshot where
  params := Params.default
  tasks := []
  nextId := 0

/-- The first thing wrong with one task, when the tasks before it have the
ids `seen`. -/
def taskFault? (g : Snapshot) (seen : List TaskId) (t : Task) : Option SnapshotFault :=
  if seen.contains t.id then some (.duplicateId t.id)
  else if g.nextId ≤ t.id then some (.idPastCount t.id g.nextId)
  else (t.fault? g.params).map (.badTask t.id)

/-- The first thing wrong with a list of tasks, when the tasks before it
have the ids `seen`. -/
def tasksFault? (g : Snapshot) (seen : List TaskId) : List Task → Option SnapshotFault
  | [] => none
  | t :: rest => (g.taskFault? seen t).or (g.tasksFault? (t.id :: seen) rest)

/-- Looks the snapshot over, the parameters first. -/
def check (g : Snapshot) : Except Refusal Unit := do
  refuseIf g.params.fault? Refusal.badParams
  refuseIf (g.tasksFault? [] g.tasks) Refusal.badSnapshot

end Snapshot

namespace Store

/-- The store of a snapshot, put into this one, which must not have been
initialised before. `authority` is who may replace the parameters. -/
def initialise (s : Store) (g : Snapshot) (authority : String) : Except Refusal Store := do
  ensure (s.params = none) (.badSnapshot .alreadyInitialised)
  let authority ← (Address.canonical authority).mapError Refusal.badAddress
  g.check
  return s.commit
    { tasks := g.tasks, params := some g.params, nextId := some g.nextId,
      authority := some authority }

/-- The snapshot of the store, with its tasks in ascending order of ids. -/
def snapshot (s : Store) : Except Refusal Snapshot := do
  let p ← s.requireParams
  return { params := p, tasks := s.tasks.rows, nextId := s.nextId }

end Store

end BountyBoard

import BountyBoard.CommandLine.Arguments
import BountyBoard.CommandLine.Report
import BountyBoard.Digest.Receipt
import BountyBoard.Encoding
import BountyBoard.Lifecycle
import BountyBoard.Listing

/-!
# Running a command

What a command does to the store of its board and what it prints. Each
command sends at most one message to the board and then prints what the
board holds. A command that fails reports why and leaves the store as it
was.
-/

namespace BountyBoard.CommandLine

/-- What a command that succeeds puts out. -/
inductive Output where
  | line (text : String)
  | file (path text : String)
  /-- Nothing: what there is to print does not fit its form, and the run
  breaks off. -/
  | broken
deriving Repr, DecidableEq

/-- Everything that a command gets to see beside the store. -/
structure Surroundings where
  read : String → Except FileFault String
  sender : Option String
  now : Time

def failWith {α : Type} (result : Except Refusal α) : Except Report α :=
  result.mapError Report.ofRefusal

def printed (j : Json) : Output :=
  .line j.render

def requireSender (around : Surroundings) : Except Report String :=
  match around.sender with
  | some sender => .ok sender
  | none => .error (.plain "--from <address> is required for this command")

/-- Sends a message to the board in the name of the principal that acts. -/
def send (s : Store) (authority : String) (around : Surroundings) (m : Message) :
    Except Report (Store × Response) := do
  let sender ← requireSender around
  (s.apply authority sender m around.now).mapError fun refusal =>
    (Report.ofRefusal refusal).within (m.name ++ " failed")

/-- Sends a message about a task and prints the task as it stands then. -/
def sendAndShow (s : Store) (authority : String) (around : Surroundings) (m : Message)
    (id : TaskId) : Except Report (Store × Output) := do
  let (next, _) ← send s authority around m
  let t ← failWith (next.task id)
  return (next, printed t.toJson)

/-- The status of a name, which has to be that of a status a task can have. -/
def requireStatus (name : String) : Except Report Status :=
  match Status.ofName name with
  | .undefined => .error (.plain ("unknown task status " ++ Text.quoted name))
  | status => .ok status

/-- The criteria of a list, with a name of a status in place of the status. -/
def filterOf (creator claimant approver status : Option String) (minBounty maxBounty : Amount) :
    Except Report Filter := do
  let status ← status.mapM requireStatus
  return { creator, claimant, approver, status, minBounty, maxBounty }

/-- The order of a list. Without a key, `descending` turns the order of ids around. -/
def orderOf (sort : Option String) (descending : Bool) :
    Except Report (Option (SortKey × Direction)) :=
  match sort with
  | some name =>
    match SortKey.ofName? name with
    | some key => .ok (some (key, .ofDescending descending))
    | none => .error (.plain ("unknown sort field " ++ Text.quoted name))
  | none => .ok (if descending then some (.id, .descending) else none)

/-- The snapshot in a file, or the default one without a file. -/
def snapshotOf (around : Surroundings) : Option String → Except Report Snapshot
  | none => .ok .default
  | some path =>
    match around.read path with
    | .error fault =>
      .error ((Report.plain ("invalid genesis: read " ++ path ++ ": " ++ fault.message)).within
        ("loading genesis from " ++ path))
    | .ok text =>
      (Snapshot.ofText text).mapError fun refusal =>
        (Report.ofRefusal refusal).within ("loading genesis from " ++ path)

def paramsOf (around : Surroundings) (path : String) : Except Report Params :=
  match around.read path with
  | .error fault =>
    .error ((Report.plain fault.message).within ("reading params from " ++ path))
  | .ok text =>
    match (Json.parse text).bind Params.ofJson with
    | some params => .ok params
    | none => .error (.plain "parsing params JSON")

/-- What a rejection prints: the task with its members in alphabetical
order, beside the text of its finding. Numbers of that form have 64 bits. -/
def rejectionOutput (t : Task) : Output :=
  if t.bounty.amount.toNat < UInt64.size then
    printed (.object [
      ("proof", Json.ofOption (fun f => .string f.text) t.finding),
      ("task", t.toJson.sorted)])
  else .broken

/-- Starts a board in a store that has none. -/
def initialise (s : Store) (around : Surroundings) (authority : String) (genesis : Option String) :
    Except Report (Store × Output) := do
  let authority ← failWith ((Address.canonical authority).mapError Refusal.badAddress)
  let g ← snapshotOf around genesis
  let next ← (s.initialise g authority).mapError fun refusal =>
    (Report.ofRefusal refusal).within "applying genesis"
  return (next, printed (.object [
    ("authority", .string authority),
    ("task_count", .number g.nextId.toNat),
    ("tasks", .number g.tasks.length)]))

/-- Runs a command on a board whose parameters `authority` may replace. -/
def runOn (s : Store) (authority : String) (around : Surroundings) :
    Command → Except Report (Store × Output)
  | .init authority genesis => initialise s around authority genesis
  | .address seed =>
    .ok (s, printed (.object [("address", .string (Address.ofSeed seed).text)]))
  | .create title description bounty => do
    let (next, response) ← send s authority around (.create title description bounty)
    match response with
    | .created id =>
      let t ← failWith (next.task id)
      return (next, printed t.toJson)
    | answer => .error (.unexpected answer)
  | .update id status title description bounty clearClaim => do
    let t ← failWith (s.task id)
    let status ← requireStatus status
    let revision : Revision :=
      { title := title.getD t.title
        description := description.getD t.description
        bounty := bounty.getD t.bounty
        status := status
        claimant := if clearClaim then none else t.claimant
        finding := if clearClaim then none else t.finding
        approver := t.approver }
    sendAndShow s authority around (.update id revision) id
  | .delete id => do
    let (next, _) ← send s authority around (.delete id)
    return (next, printed (.object [("deleted", .number id.toNat)]))
  | .claim id => sendAndShow s authority around (.claim id) id
  | .submit id hash kind data =>
    sendAndShow s authority around (.submit id ⟨hash, kind, data, around.now⟩) id
  | .approve id => do
    let approver ← requireSender around
    let name := approvalName id approver around.now
    let (next, response) ← send s authority around (.approve id name)
    match response with
    | .approved reward => return (next, printed reward.toJson)
    | answer => .error (.unexpected answer)
  | .reject id reason => do
    let (next, _) ← send s authority around (.reject id reason)
    let t ← failWith (next.task id)
    return (next, rejectionOutput t)
  | .showTask id => do
    let t ← failWith (s.task id)
    return (s, printed t.toJson)
  | .list creator claimant approver status minBounty maxBounty sort descending => do
    let filter ← filterOf creator claimant approver status minBounty maxBounty
    let order ← orderOf sort descending
    return (s, printed (.array ((s.list filter order).map Task.toJson)))
  | .reward id => do
    let r ← failWith (s.reward id)
    return (s, printed r.toJson)
  | .rewards none => .ok (s, printed (.array (s.rewards.rows.map Reward.toJson)))
  | .rewards (some claimant) => do
    let rewards ← failWith (s.rewardsOf claimant)
    return (s, printed (.array (rewards.map Reward.toJson)))
  | .params => do
    let p ← failWith s.requireParams
    return (s, printed p.toJson)
  | .setParams path => do
    let p ← paramsOf around path
    let (next, _) ← send s authority around (.setParams p)
    let p ← failWith next.requireParams
    return (next, printed p.toJson)
  | .exportTo out => do
    let g ← failWith s.snapshot
    match out with
    | none => return (s, .line g.text)
    | some path => return (s, .file path g.text)

/-- The command can be run where no board was started. -/
def Command.needsNoBoard : Command → Bool
  | .init .. | .address _ => true
  | _ => false

/-- Runs a command. All but `init` and `address` need a board. -/
def run (s : Store) (around : Surroundings) (command : Command) :
    Except Report (Store × Output) :=
  match s.authority with
  | some authority => runOn s authority around command
  | none =>
    if command.needsNoBoard then runOn s "" around command
    else .error (.plain "state is not initialised; run `bountyd init` first")

def versionText : String :=
  "bountyd 0.1.0\n"

inductive Ending where
  | refused
  | help
  | printed (text : String)
  | failed (report : Report)
  | broken
deriving Repr, DecidableEq

def Ending.code : Ending → UInt32
  | .help | .printed _ => 0
  | .failed _ => 1
  | .refused => 2
  | .broken => 101

/-- A command that wrote a file prints nothing. -/
def Ending.ofWrite (path : String) : Except FileFault Unit → Ending
  | .ok () => .printed ""
  | .error fault =>
    .failed ((Report.plain fault.message).within ("writing genesis to " ++ path))

end BountyBoard.CommandLine

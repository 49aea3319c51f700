import BountyBoard.Json.Record
import BountyBoard.Json.Parse
import BountyBoard.Json.Render
import BountyBoard.Snapshot

/-!
# The written form of the records

Each record of the board as a JSON value and back. A record is written with
all its fields in a fixed order, an absent value as null. When it is read
an optional field may be left out.
-/

namespace BountyBoard

/-! ## Coins -/

def Coin.toJson (c : Coin) : Json :=
  .object [("denom", .string c.denom), ("amount", .number c.amount.toNat)]

def Coin.ofJson (j : Json) : Option Coin :=
  match j.fields ["denom", "amount"] 2 with
  | some [denom, amount] => do
    let denom ← Json.required Json.readString? denom
    let amount ← Json.required Json.readAmount? amount
    return ⟨amount, denom⟩
  | _ => none

/-! ## Statuses -/

/-- The name of a status in a record. -/
def Status.label : Status → String
  | undefined => "Undefined"
  | opened => "Open"
  | claimed => "Claimed"
  | submitted => "Submitted"
  | approved => "Approved"
  | rejected => "Rejected"
  | closed => "Closed"

/-- The status that has a name in records. -/
def Status.ofLabel? (s : String) : Option Status :=
  all.find? fun status => status.label == s

def Status.toJson (status : Status) : Json :=
  .string status.label

/-- A status is its name, or an object of its name and null. -/
def Status.ofJson : Json → Option Status
  | .string s => ofLabel? s
  | .object [(s, .null)] => ofLabel? s
  | _ => none

/-! ## Evidence -/

def Evidence.toJson (e : Evidence) : Json :=
  .object [
    ("hash", .string e.hash),
    ("proof_type", .string e.kind),
    ("data", Json.ofOption .string e.data),
    ("timestamp", .number e.timestamp.toInt)]

/-- The evidence of a record. Its data may be left out. -/
def Evidence.ofJson (j : Json) : Option Evidence :=
  match j.fields ["hash", "proof_type", "data", "timestamp"] 4 with
  | some [hash, kind, data, timestamp] => do
    let hash ← Json.required Json.readString? hash
    let kind ← Json.required Json.readString? kind
    let data ← Json.optional Json.readString? data
    let timestamp ← Json.required Json.readTime? timestamp
    return ⟨hash, kind, data, timestamp⟩
  | _ => none

/-- A finding as an object with one member, named for what it finds. -/
def Finding.toJson : Finding → Json
  | submitted e => .object [("Submitted", e.toJson)]
  | rejected reason => .object [("Rejected", .object [("reason", .string reason)])]

/-- The reason of a rejection. -/
def Finding.reasonOfJson (j : Json) : Option String :=
  match j.fields ["reason"] 1 with
  | some [reason] => Json.required Json.readString? reason
  | _ => none

/-- The finding of an object with just one member. -/
def Finding.ofJson : Json → Option Finding
  | .object [(name, j)] =>
    if name = "Submitted" then (Evidence.ofJson j).map submitted
    else if name = "Rejected" then (reasonOfJson j).map rejected
    else none
  | _ => none

/-! ## Tasks -/

def Task.toJson (t : Task) : Json :=
  .object [
    ("id", .number t.id.toNat),
    ("creator", .string t.creator),
    ("title", .string t.title),
    ("description", .string t.description),
    ("bounty", t.bounty.toJson),
    ("status", t.status.toJson),
    ("claimant", Json.ofOption .string t.claimant),
    ("proof", Json.ofOption Finding.toJson t.finding),
    ("approver", Json.ofOption .string t.approver),
    ("created_at", .number t.createdAt.toInt),
    ("updated_at", .number t.updatedAt.toInt)]

def Task.fieldNames : List String :=
  ["id", "creator", "title", "description", "bounty", "status", "claimant", "proof",
    "approver", "created_at", "updated_at"]

/-- The task of a record. Claimant, proof and approver may be left out. -/
def Task.ofJson (j : Json) : Option Task :=
  match j.fields Task.fieldNames 11 with
  | some [id, creator, title, description, bounty, status, claimant, finding, approver,
      createdAt, updatedAt] => do
    let id ← Json.required Json.readCount? id
    let creator ← Json.required Json.readString? creator
    let title ← Json.required Json.readString? title
    let description ← Json.required Json.readString? description
    let bounty ← Json.required Coin.ofJson bounty
    let status ← Json.required Status.ofJson status
    let claimant ← Json.optional Json.readString? claimant
    let finding ← Json.optional Finding.ofJson finding
    let approver ← Json.optional Json.readString? approver
    let createdAt ← Json.required Json.readTime? createdAt
    let updatedAt ← Json.required Json.readTime? updatedAt
    return ⟨id, creator, title, description, bounty, status, claimant, finding, approver,
      createdAt, updatedAt⟩
  | _ => none

/-! ## Rewards -/

def Reward.toJson (r : Reward) : Json :=
  .object [
    ("task_id", .number r.taskId.toNat),
    ("claimant", .string r.claimant),
    ("amount", r.amount.toJson),
    ("timestamp", .number r.timestamp.toInt),
    ("tx_hash", .string r.txHash)]

def Reward.ofJson (j : Json) : Option Reward :=
  match j.fields ["task_id", "claimant", "amount", "timestamp", "tx_hash"] 5 with
  | some [taskId, claimant, amount, timestamp, txHash] => do
    let taskId ← Json.required Json.readCount? taskId
    let claimant ← Json.required Json.readString? claimant
    let amount ← Json.required Coin.ofJson amount
    let timestamp ← Json.required Json.readTime? timestamp
    let txHash ← Json.required Json.readString? txHash
    return ⟨taskId, claimant, amount, timestamp, txHash⟩
  | _ => none

/-! ## Parameters -/

def Params.toJson (p : Params) : Json :=
  .object [
    ("min_bounty", p.minBounty.toJson),
    ("max_bounty", p.maxBounty.toJson),
    ("max_title_length", .number p.maxTitleLength.toNat),
    ("max_description_length", .number p.maxDescriptionLength.toNat),
    ("proof_types", .array (p.proofTypes.map .string)),
    ("auto_approve_threshold", .number p.autoApproveThreshold.toNat),
    ("task_expiry", .number p.taskExpiry.toNat),
    ("claim_deadline", .number p.claimDeadline.toNat),
    ("submission_deadline", .number p.submissionDeadline.toNat)]

def Params.fieldNames : List String :=
  ["min_bounty", "max_bounty", "max_title_length", "max_description_length", "proof_types",
    "auto_approve_threshold", "task_expiry", "claim_deadline", "submission_deadline"]

/-- The parameters of a record, all of them. -/
def Params.ofJson (j : Json) : Option Params :=
  match j.fields Params.fieldNames 9 with
  | some [minBounty, maxBounty, maxTitleLength, maxDescriptionLength, proofTypes,
      autoApproveThreshold, taskExpiry, claimDeadline, submissionDeadline] => do
    let minBounty ← Json.required Coin.ofJson minBounty
    let maxBounty ← Json.required Coin.ofJson maxBounty
    let maxTitleLength ← Json.required Json.readCount? maxTitleLength
    let maxDescriptionLength ← Json.required Json.readCount? maxDescriptionLength
    let proofTypes ← Json.required (Json.readList? Json.readString?) proofTypes
    let autoApproveThreshold ← Json.required Json.readCount? autoApproveThreshold
    let taskExpiry ← Json.required Json.readCount? taskExpiry
    let claimDeadline ← Json.required Json.readCount? claimDeadline
    let submissionDeadline ← Json.required Json.readCount? submissionDeadline
    return ⟨minBounty, maxBounty, maxTitleLength, maxDescriptionLength, proofTypes,
      autoApproveThreshold, taskExpiry, claimDeadline, submissionDeadline⟩
  | _ => none

/-! ## Snapshots -/

def Snapshot.toJson (g : Snapshot) : Json :=
  .object [
    ("params", g.params.toJson),
    ("task_list", .array (g.tasks.map Task.toJson)),
    ("task_count", .number g.nextId.toNat)]

/-- A snapshot without tasks may leave them out, and the next id too. -/
def Snapshot.ofJson (j : Json) : Option Snapshot :=
  match j.fields ["params", "task_list", "task_count"] 1 with
  | some [params, tasks, nextId] => do
    let params ← Json.required Params.ofJson params
    let tasks ← Json.withDefault [] (Json.readList? Task.ofJson) tasks
    let nextId ← Json.withDefault 0 Json.readCount? nextId
    return ⟨params, tasks, nextId⟩
  | _ => none

def Snapshot.text (g : Snapshot) : String :=
  g.toJson.render

def Snapshot.ofText (s : String) : Except Refusal Snapshot :=
  match (Json.parse s).bind Snapshot.ofJson with
  | some g => .ok g
  | none => .error .unreadable

end BountyBoard

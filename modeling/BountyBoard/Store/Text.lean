import BountyBoard.Encoding

/-!
# The written form of a store

The text that a store is kept as between runs. Unlike a snapshot it holds
the rewards and the authority too.
-/

namespace BountyBoard

/-- The table of rows that may stand in any order. -/
def Table.ofRows {α : Type} {key : α → TaskId} (rows : List α) : Table key :=
  rows.foldl Table.insert Table.empty

namespace Store

def toJson (s : Store) : Json :=
  .object [
    ("next_id", .number s.nextId.toNat),
    ("authority", Json.ofOption .string s.authority),
    ("params", Json.ofOption Params.toJson s.params),
    ("tasks", .array (s.tasks.rows.map Task.toJson)),
    ("rewards", .array (s.rewards.rows.map Reward.toJson))]

def ofJson (j : Json) : Option Store :=
  match j.fields ["next_id", "authority", "params", "tasks", "rewards"] 5 with
  | some [nextId, authority, params, tasks, rewards] => do
    let nextId ← Json.required Json.readCount? nextId
    let authority ← Json.optional Json.readString? authority
    let params ← Json.optional Params.ofJson params
    let tasks ← Json.required (Json.readList? Task.ofJson) tasks
    let rewards ← Json.required (Json.readList? Reward.ofJson) rewards
    return ⟨Table.ofRows tasks, Table.ofRows rewards, params, nextId, authority⟩
  | _ => none

def text (s : Store) : String :=
  s.toJson.render

def ofText? (s : String) : Option Store :=
  (Json.parse s).bind ofJson

end Store

end BountyBoard

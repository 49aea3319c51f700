import BountyBoard.Store

/-!
# Lists of tasks

Tasks picked by criteria and put into an order. Criteria that are not set
let every task through. Sorting is stable in both directions: tasks that
the key does not tell apart keep the order they came in.
-/

namespace BountyBoard

/-- Criteria that a task has to meet, all of them. -/
structure Filter where
  creator : Option String
  claimant : Option String
  approver : Option String
  /-- The status `undefined` stands for any status. -/
  status : Option Status
  /-- Zero sets no lower bound. -/
  minBounty : Amount
  /-- Zero sets no upper bound. -/
  maxBounty : Amount
deriving Repr, DecidableEq

namespace Filter

def everything : Filter where
  creator := none
  claimant := none
  approver := none
  status := none
  minBounty := .zero
  maxBounty := .zero

/-- No value is asked for, or the value at hand is it. -/
def admits {α : Type} [DecidableEq α] (wanted : Option α) (actual : Option α) : Bool :=
  wanted.isNone || actual == wanted

def picks (f : Filter) (t : Task) : Bool :=
  admits f.creator (some t.creator)
    && admits f.claimant t.claimant
    && admits f.approver t.approver
    && (f.status == some .undefined || admits f.status (some t.status))
    && (f.minBounty.toNat == 0 || f.minBounty ≤ t.bounty.amount)
    && (f.maxBounty.toNat == 0 || t.bounty.amount ≤ f.maxBounty)

end Filter

inductive SortKey where
  | id
  | bounty
  | status
  | createdAt
deriving Repr, DecidableEq

/-- The key of a name in any mix of upper and lower ASCII case. -/
def SortKey.ofName? (s : String) : Option SortKey :=
  let lower := String.ofList (s.toList.map Char.toLower)
  if lower = "id" then some .id
  else if lower = "bounty" then some .bounty
  else if lower = "status" then some .status
  else if lower = "created_at" ∨ lower = "createdat" then some .createdAt
  else none

def SortKey.rank (k : SortKey) (t : Task) : Int :=
  match k with
  | .id => t.id.toNat
  | .bounty => t.bounty.amount.toNat
  | .status => t.status.number
  | .createdAt => t.createdAt.toInt

inductive Direction where
  | ascending
  | descending
deriving Repr, DecidableEq

/-- The direction that a flag for descending order asks for. -/
def Direction.ofDescending (descending : Bool) : Direction :=
  if descending then .descending else .ascending

/-- The first task may stand before the second. -/
def mayPrecede (k : SortKey) (d : Direction) (a b : Task) : Bool :=
  match d with
  | .ascending => k.rank a ≤ k.rank b
  | .descending => k.rank b ≤ k.rank a

def sortTasks (k : SortKey) (d : Direction) (ts : List Task) : List Task :=
  ts.mergeSort (mayPrecede k d)

/-- The tasks of the board that meet the criteria, in ascending order of
ids unless another order is asked for. -/
def Store.list (s : Store) (f : Filter) (order : Option (SortKey × Direction)) : List Task :=
  let picked := s.tasks.rows.filter f.picks
  match order with
  | none => picked
  | some (k, d) => sortTasks k d picked

end BountyBoard

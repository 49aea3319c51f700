import BountyBoard.Address
import BountyBoard.Task

/-!
# Valid tasks

The rules that every task on the board keeps, one group for each of its
fields. The groups stand in a fixed order, `Aspect.all`, and a task that
breaks several rules is refused for the first of them (`fault?`).
-/

namespace BountyBoard.Task

inductive Fault where
  | emptyTitle
  | titleTooLong (max got : Nat)
  | emptyDescription
  | descriptionTooLong (max got : Nat)
  | zeroBounty
  | wrongDenom (expected got : String)
  | bountyBelowMin (min got : Amount)
  | bountyAboveMax (max got : Amount)
  | undefinedStatus
  | emptyCreator
  | badCreator (fault : Address.Fault)
  | badCreatedAt (createdAt : Time)
  | updatedBeforeCreated (createdAt updatedAt : Time)
  | badClaimant (fault : Address.Fault)
  | badApprover (fault : Address.Fault)
deriving Repr, DecidableEq

def Fault.message : Fault → String
  | .emptyTitle => "title cannot be empty"
  | .titleTooLong max got =>
      "title exceeds maximum length of " ++ Text.natural max ++ " characters (got "
        ++ Text.natural got ++ ")"
  | .emptyDescription => "description cannot be empty"
  | .descriptionTooLong max got =>
      "description exceeds maximum length of " ++ Text.natural max ++ " characters (got "
        ++ Text.natural got ++ ")"
  | .zeroBounty => "bounty must be positive"
  | .wrongDenom expected got => "bounty denom must be " ++ expected ++ " (got " ++ got ++ ")"
  | .bountyBelowMin min got =>
      "bounty " ++ Text.natural got.toNat ++ " is below the minimum of "
        ++ Text.natural min.toNat
  | .bountyAboveMax max got =>
      "bounty " ++ Text.natural got.toNat ++ " exceeds the maximum of "
        ++ Text.natural max.toNat
  | .undefinedStatus => "task status must be defined"
  | .emptyCreator => "creator cannot be empty"
  | .badCreator fault => "invalid creator address: " ++ fault.message
  | .badCreatedAt createdAt =>
      "created_at must be positive (got " ++ Text.integer createdAt.toInt ++ ")"
  | .updatedBeforeCreated createdAt updatedAt =>
      "updated_at " ++ Text.integer updatedAt.toInt ++ " is before created_at "
        ++ Text.integer createdAt.toInt
  | .badClaimant fault => "invalid claimant address: " ++ fault.message
  | .badApprover fault => "invalid approver address: " ++ fault.message

/-- What the rules are about. The two times are one subject. -/
inductive Aspect where
  | title
  | description
  | bounty
  | status
  | creator
  | times
  | claimant
  | approver
deriving Repr, DecidableEq

/-- The subjects in the order in which a task is looked over. -/
def Aspect.all : List Aspect :=
  [title, description, bounty, status, creator, times, claimant, approver]

def Fault.aspect : Fault → Aspect
  | .emptyTitle | .titleTooLong .. => .title
  | .emptyDescription | .descriptionTooLong .. => .description
  | .zeroBounty | .wrongDenom .. | .bountyBelowMin .. | .bountyAboveMax .. => .bounty
  | .undefinedStatus => .status
  | .emptyCreator | .badCreator .. => .creator
  | .badCreatedAt .. | .updatedBeforeCreated .. => .times
  | .badClaimant .. => .claimant
  | .badApprover .. => .approver

/-- The fault of a text that stands for no address. -/
def addressFault? (s : String) : Option Address.Fault :=
  match Address.ofText s with
  | .error fault => some fault
  | .ok _ => none

def titleFault? (p : Params) (title : String) : Option Fault :=
  if Text.isBlankText title then some .emptyTitle
  else if p.maxTitleLength.toNat < title.length then
    some (.titleTooLong p.maxTitleLength.toNat title.length)
  else none

def descriptionFault? (p : Params) (description : String) : Option Fault :=
  if Text.isBlankText description then some .emptyDescription
  else if p.maxDescriptionLength.toNat < description.length then
    some (.descriptionTooLong p.maxDescriptionLength.toNat description.length)
  else none

def bountyFault? (p : Params) (bounty : Coin) : Option Fault :=
  if bounty.isZero then some .zeroBounty
  else if bounty.denom ≠ p.denom then some (.wrongDenom p.denom bounty.denom)
  else if bounty.amount < p.minBounty.amount then
    some (.bountyBelowMin p.minBounty.amount bounty.amount)
  else if p.maxBounty.amount < bounty.amount then
    some (.bountyAboveMax p.maxBounty.amount bounty.amount)
  else none

def statusFault? (status : Status) : Option Fault :=
  if status = .undefined then some .undefinedStatus else none

def creatorFault? (creator : String) : Option Fault :=
  if creator.isEmpty then some .emptyCreator
  else (addressFault? creator).map .badCreator

def timesFault? (createdAt updatedAt : Time) : Option Fault :=
  if createdAt ≤ 0 then some (.badCreatedAt createdAt)
  else if updatedAt < createdAt then some (.updatedBeforeCreated createdAt updatedAt)
  else none

def claimantFault? (claimant : Option String) : Option Fault :=
  claimant.bind fun who => (addressFault? who).map .badClaimant

def approverFault? (approver : Option String) : Option Fault :=
  approver.bind fun who => (addressFault? who).map .badApprover

/-- The first broken rule about one subject, if one is broken. -/
def faultIn (p : Params) (t : Task) : Aspect → Option Fault
  | .title => titleFault? p t.title
  | .description => descriptionFault? p t.description
  | .bounty => bountyFault? p t.bounty
  | .status => statusFault? t.status
  | .creator => creatorFault? t.creator
  | .times => timesFault? t.createdAt t.updatedAt
  | .claimant => claimantFault? t.claimant
  | .approver => approverFault? t.approver

def fault? (p : Params) (t : Task) : Option Fault :=
  Aspect.all.findSome? (faultIn p t)

/-- A task that keeps every rule. -/
def Valid (p : Params) (t : Task) : Prop :=
  fault? p t = none

instance (p : Params) (t : Task) : Decidable (Valid p t) :=
  inferInstanceAs (Decidable (fault? p t = none))

theorem valid_iff {p : Params} {t : Task} : Valid p t ↔ ∀ aspect, faultIn p t aspect = none := by
  rw [Valid, fault?, List.findSome?_eq_none_iff]
  constructor
  · intro h aspect
    exact h aspect (by cases aspect <;> decide)
  · intro h aspect _
    exact h aspect

end BountyBoard.Task

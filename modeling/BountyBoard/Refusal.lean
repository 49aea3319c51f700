import BountyBoard.Reward
import BountyBoard.Task.Validity

/-!
# Refusals

Every reason for which a request is refused, with its wording and the class
that a caller picks a response by.
-/

namespace BountyBoard

inductive SnapshotFault where
  | alreadyInitialised
  | duplicateId (id : TaskId)
  | idPastCount (id : TaskId) (count : Count)
  | badTask (id : TaskId) (fault : Task.Fault)
deriving Repr, DecidableEq

def SnapshotFault.message : SnapshotFault → String
  | .alreadyInitialised => "state is already initialised"
  | .duplicateId id => "duplicated id for task: " ++ Text.natural id.toNat
  | .idPastCount id count =>
      "task id " ++ Text.natural id.toNat ++ " should be lower than task count "
        ++ Text.natural count.toNat
  | .badTask id fault => "task " ++ Text.natural id.toNat ++ ": " ++ fault.message

/-- Why a request is refused. -/
inductive Refusal where
  | badAddress (fault : Address.Fault)
  | badCoin (fault : Coin.Fault)
  | noTask (id : TaskId)
  | noReward (id : TaskId)
  | notCreator
  | notClaimant
  | notAuthority
  | wrongStatus (expected actual : Status)
  | badTransition (source target : Status)
  | claimByCreator
  | alreadyClaimed
  | undeletable (status : Status)
  | taskExpired
  | claimExpired
  | reviewExpired
  | badEvidence (fault : Evidence.Fault)
  | blankReason
  | approvalByUpdate
  | idsExhausted
  | badReward (mismatch : Reward.Mismatch)
  | alreadyRewarded (id : TaskId)
  | splitMismatch (recipients weights : Nat)
  | splitOverflow
  | badTask (fault : Task.Fault)
  | badParams (fault : Params.Fault)
  | badSnapshot (fault : SnapshotFault)
  | unreadable
  | noParams
deriving Repr, DecidableEq

namespace Refusal

inductive Kind where
  | invalidAddress
  | notFound
  | unauthorized
  | invalidRequest
  | internal
deriving Repr, DecidableEq

/-- The class of each refusal. What no class is meant for is an invalid request. -/
def kind : Refusal → Kind
  | badAddress _ => .invalidAddress
  | noTask _ | noReward _ => .notFound
  | notCreator | notClaimant | notAuthority => .unauthorized
  | unreadable | noParams | idsExhausted => .internal
  | _ => .invalidRequest

def message : Refusal → String
  | badAddress fault => fault.message
  | badCoin fault => fault.message
  | noTask id => "task " ++ Text.natural id.toNat ++ " not found"
  | noReward id => "reward for task " ++ Text.natural id.toNat ++ " not found"
  | notCreator => "incorrect owner: only the task creator may perform this action"
  | notClaimant => "only the task claimant may submit proof"
  | notAuthority => "only the params authority may update params"
  | wrongStatus expected actual =>
      "task is not in " ++ expected.name ++ " status (current: " ++ actual.name ++ ")"
  | badTransition source target =>
      "invalid status transition from " ++ source.name ++ " to " ++ target.name
  | claimByCreator => "creator cannot claim own task"
  | alreadyClaimed => "task already has a claimant"
  | undeletable status => "cannot delete task in " ++ status.name ++ " status"
  | taskExpired => "task has expired"
  | claimExpired => "claim deadline has passed"
  | reviewExpired => "submission review deadline has passed"
  | badEvidence fault => "invalid proof: " ++ fault.message
  | blankReason => "rejection reason must not be empty"
  | approvalByUpdate => "tasks are approved only through approve, not update"
  | idsExhausted => "task ids exhausted"
  | badReward mismatch => "reward does not match task: " ++ mismatch.message
  | alreadyRewarded id => "reward for task " ++ Text.natural id.toNat ++ " already exists"
  | splitMismatch recipients weights =>
      "recipients and weights length mismatch: " ++ Text.natural recipients ++ " recipients, "
        ++ Text.natural weights ++ " weights"
  | splitOverflow => "reward split overflowed"
  | badTask fault => "invalid task: " ++ fault.message
  | badParams fault => "invalid params: " ++ fault.message
  | badSnapshot fault => "invalid genesis: " ++ fault.message
  | unreadable => "serialization error"
  | noParams => "storage error: params not initialised"

end Refusal

/-- Passes when the condition holds, and refuses otherwise. -/
def ensure (condition : Prop) [Decidable condition] (refusal : Refusal) :
    Except Refusal Unit :=
  if condition then .ok () else .error refusal

/-- Passes when there is nothing wrong, and refuses otherwise. -/
def refuseIf {α : Type} (fault : Option α) (refusal : α → Refusal) : Except Refusal Unit :=
  match fault with
  | none => .ok ()
  | some a => .error (refusal a)

theorem ensure_eq_ok {condition : Prop} [Decidable condition] {refusal : Refusal} {u : Unit} :
    ensure condition refusal = .ok u ↔ condition := by
  unfold ensure
  split <;> simp_all

theorem refuseIf_eq_ok {α : Type} {fault : Option α} {refusal : α → Refusal} {u : Unit} :
    refuseIf fault refusal = .ok u ↔ fault = none := by
  cases fault <;> simp [refuseIf]

end BountyBoard

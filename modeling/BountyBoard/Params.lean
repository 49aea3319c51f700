import BountyBoard.Coin

/-!
# Parameters

The policy of the board: what a bounty may be, how long texts may be, which
kinds of evidence are accepted and how long each party has to act. Every
duration is in seconds, and a duration of zero sets no deadline.
-/

namespace BountyBoard

/-- The policy in force. -/
structure Params where
  minBounty : Coin
  maxBounty : Coin
  maxTitleLength : Count
  maxDescriptionLength : Count
  /-- The kinds of evidence a submission may offer. -/
  proofTypes : List String
  /-- How many approvals make a submission count as approved by itself. -/
  autoApproveThreshold : Count
  /-- How long after creation a task can be claimed. -/
  taskExpiry : Count
  /-- How long after claiming a task its claimant can submit. -/
  claimDeadline : Count
  /-- How long after a submission the creator can review it. -/
  submissionDeadline : Count
deriving Repr, DecidableEq

namespace Params

/-- The parameters of a board that sets none of its own. -/
def default : Params where
  minBounty := ⟨⟨1000, by decide⟩, "stake"⟩
  maxBounty := ⟨⟨1000000, by decide⟩, "stake"⟩
  maxTitleLength := 100
  maxDescriptionLength := 1000
  proofTypes := ["ipfs", "url", "text"]
  autoApproveThreshold := 5
  taskExpiry := 30 * 86400
  claimDeadline := 7 * 86400
  submissionDeadline := 14 * 86400

def denom (p : Params) : String :=
  p.minBounty.denom

/-- Evidence of this kind is accepted. -/
def allows (p : Params) (kind : String) : Bool :=
  p.proofTypes.contains kind

/-- What is wrong with a set of parameters. -/
inductive Fault where
  | zeroMinBounty
  | zeroMaxBounty
  | minAboveMax
  | denomMismatch
  | badDenom (denom : String)
  | zeroTitleLength
  | zeroDescriptionLength
  | noProofTypes
  | emptyProofType
  | zeroThreshold
deriving Repr, DecidableEq

def Fault.message : Fault → String
  | .zeroMinBounty => "min bounty must be positive"
  | .zeroMaxBounty => "max bounty must be positive"
  | .minAboveMax => "min bounty cannot be greater than max bounty"
  | .denomMismatch => "min and max bounty must have the same denom"
  | .badDenom denom => "invalid bounty denom " ++ Text.quoted denom
  | .zeroTitleLength => "max title length must be positive"
  | .zeroDescriptionLength => "max description length must be positive"
  | .noProofTypes => "at least one proof type must be specified"
  | .emptyProofType => "proof types must not be empty"
  | .zeroThreshold => "auto approve threshold must be positive"

/-- The first thing wrong with the parameters, if anything is. -/
def fault? (p : Params) : Option Fault :=
  if p.minBounty.isZero then some .zeroMinBounty
  else if p.maxBounty.isZero then some .zeroMaxBounty
  else if p.maxBounty.amount < p.minBounty.amount then some .minAboveMax
  else if p.minBounty.denom ≠ p.maxBounty.denom then some .denomMismatch
  else if !Coin.validDenom p.minBounty.denom then some (.badDenom p.minBounty.denom)
  else if p.maxTitleLength = 0 then some .zeroTitleLength
  else if p.maxDescriptionLength = 0 then some .zeroDescriptionLength
  else if p.proofTypes.isEmpty then some .noProofTypes
  else if p.proofTypes.any (·.isEmpty) then some .emptyProofType
  else if p.autoApproveThreshold = 0 then some .zeroThreshold
  else none

end Params

end BountyBoard

import BountyBoard.CommandLine.Folder
import BountyBoard.CommandLine.Host
import BountyBoard.CommandLine.Path
import BountyBoard.CommandLine.Report
import BountyBoard.CommandLine.Run
import BountyBoard.CommandLine.Usage
import BountyBoard.Digest.Receipt
import BountyBoard.Encoding
import BountyBoard.Listing
import BountyBoard.Main
import BountyBoard.Proofs.AccessControl
import BountyBoard.Proofs.Coherence
import BountyBoard.Proofs.Migration
import BountyBoard.Proofs.SelfPayment
import BountyBoard.Proofs.Walk
import BountyBoard.Reward.Payout
import BountyBoard.Reward.Split
import BountyBoard.Store.Text
import BountyBoard.Text.Hex
import BountyBoard.Proofs.Effect
import BountyBoard.Proofs.FreshIds
import BountyBoard.Proofs.Independence
import BountyBoard.Proofs.Lineage
import BountyBoard.Proofs.Deadline
import BountyBoard.Proofs.Governance
import BountyBoard.Proofs.Import
import BountyBoard.Proofs.Approval
import BountyBoard.Proofs.PaidWork
import BountyBoard.Proofs.Split
import BountyBoard.Proofs.Listing
import BountyBoard.Proofs.CommandLine.Folder
import BountyBoard.Proofs.CommandLine.Run
import BountyBoard.Proofs.CommandLine.Report
import BountyBoard.Proofs.CommandLine.Runs
import BountyBoard.Proofs.Coin
import BountyBoard.Proofs.Diagnosis
import BountyBoard.Proofs.Offence
import BountyBoard.Proofs.Payout
import BountyBoard.Proofs.Address.Length
import BountyBoard.Proofs.Expiry
import BountyBoard.Proofs.CommandLine.Update
import BountyBoard.Proofs.Payout.Exactness
import BountyBoard.Proofs.Digest

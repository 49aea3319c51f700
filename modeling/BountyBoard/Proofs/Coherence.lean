import BountyBoard.Proofs.Row
import BountyBoard.Proofs.StoredTasks

/-!
# Fields that go with the status

Claiming, submitting, approving and rejecting keep claimant, finding and
approver in step with the status: an open task is in nobody's hands, a
claimed one has a claimant, one that waits for its review has evidence, a
rejected one has the reason, and only what was approved has an approver. A
revision sets status and fields at once, and nothing compares them, so a field
can be handed over that does not go with the status it comes with
(`out_of_step`).

How long it stays so differs from field to field, and each has a law of its own
(`Task.InStep`). Whoever is named as the claimant stays until the next revision:
a claim needs an open task without one, and a submission needs the claimant
itself. A finding is replaced by the next submission or rejection, and while
the task is claimed any will do. An approver is replaced by an approval only.
So the latest revision decides about each field, whatever earlier ones did, and
a task that was never revised has all of them in step (`coherence`).

It matters most for open tasks. One without a claimant can be claimed by
anyone but its creator (`claim_accepted`), and one that was handed over with
its claimant is refused to the next one who would claim it.
-/

namespace BountyBoard

namespace Status

/-- The claimants that go with a status. -/
def AdmitsClaimant : Status → Option String → Prop
  | opened, claimant => claimant = none
  | claimed, claimant | submitted, claimant | rejected, claimant => claimant ≠ none
  | _, _ => True

/-- The findings that go with a status. -/
def AdmitsFinding : Status → Option Finding → Prop
  | opened, finding => finding = none
  | submitted, finding => ∃ evidence, finding = some (.submitted evidence)
  | rejected, finding => ∃ reason, finding = some (.rejected reason)
  | _, _ => True

/-- The approvers that go with a status. -/
def AdmitsApprover : Status → Option String → Prop
  | approved, _ | closed, _ => True
  | _, approver => approver = none

end Status

/-- How far the fields of a task go with its status, when `latest` is its latest
revision with the sender. -/
structure Task.InStep (latest : Option (String × Revision)) (t : Task) : Prop where
  since : ∀ sender r, latest = some (sender, r) → r.status.number ≤ t.status.number
  claimant : t.status.AdmitsClaimant t.claimant
    ↔ ∀ sender r, latest = some (sender, r) → t.status ≠ .approved →
      r.status.AdmitsClaimant r.claimant
  finding : t.status.AdmitsFinding t.finding
    ↔ ∀ sender r, latest = some (sender, r) → t.status = r.status →
      r.status.AdmitsFinding r.finding
  approver : t.status.AdmitsApprover t.approver
    ↔ ∀ sender r, latest = some (sender, r) → t.status ≠ .approved →
      r.status.AdmitsApprover r.approver

namespace Task.InStep

theorem posted (i : TaskId) (sender title description : String) (bounty : Coin) (now : Time) :
    (Task.posted i sender title description bounty now).InStep none where
  since := by rintro _ _ ⟨⟩
  claimant := iff_of_true rfl (by rintro _ _ ⟨⟩)
  finding := iff_of_true rfl (by rintro _ _ ⟨⟩)
  approver := iff_of_true rfl (by rintro _ _ ⟨⟩)

/-- A revised task has the fields of the revision. -/
theorem revised {sender : String} {now : Time} {t : Task} {r : Revision}
    (gate : r.status ≠ .approved) : (Store.revise t r now).InStep (some (sender, r)) := by
  have hlatest : ∀ {P : Revision → Prop},
      (∀ other r', some (sender, r) = some (other, r') → P r') ↔ P r := by
    intro P
    constructor
    · exact fun h => h sender r rfl
    · rintro h _ _ ⟨⟩
      exact h
  refine ⟨hlatest.mpr (Nat.le_refl _), ?_, ?_, ?_⟩
  · exact (hlatest.trans (forall_prop_of_true gate)).symm
  · exact (hlatest.trans (forall_prop_of_true rfl)).symm
  · exact (hlatest.trans (forall_prop_of_true gate)).symm

section

variable {latest : Option (String × Revision)} {sender : String} {now : Time} {t t' : Task}
  {m : Message}

theorem claimant_moved (move : t.Move sender now m (some t')) (other : ∀ r, m ≠ .update t.id r)
    (h : t.InStep latest) :
    t'.status.AdmitsClaimant t'.claimant
      ↔ ∀ sender r, latest = some (sender, r) → t'.status ≠ .approved →
        r.status.AdmitsClaimant r.claimant := by
  have hlaw := h.claimant
  cases move with
  | update => exact absurd rfl (other _)
  | claim status _ unclaimed =>
      rw [status, unclaimed] at hlaw
      refine iff_of_true (Option.some_ne_none sender) fun who r hlatest _ => ?_
      exact hlaw.mp rfl who r hlatest nofun
  | submit status claimant =>
      rw [status, claimant] at hlaw
      rw [claimant]
      refine iff_of_true (Option.some_ne_none sender) fun who r hlatest _ => ?_
      exact hlaw.mp (Option.some_ne_none sender) who r hlatest nofun
  | approve => exact iff_of_true trivial fun _ _ _ happroved => absurd rfl happroved
  | reject status =>
      rw [status] at hlaw
      simpa [Status.AdmitsClaimant] using hlaw

/-- Whatever finding is there after a move goes with the status, and the task
has moved on since its latest revision. -/
theorem finding_moved (move : t.Move sender now m (some t')) (other : ∀ r, m ≠ .update t.id r)
    (h : t.InStep latest) :
    t'.status.AdmitsFinding t'.finding
      ↔ ∀ sender r, latest = some (sender, r) → t'.status = r.status →
        r.status.AdmitsFinding r.finding := by
  have hmoved : ∀ who r, latest = some (who, r) → t'.status ≠ r.status := by
    intro who r hlatest hsame
    have hlt := Nat.lt_of_le_of_lt (h.since who r hlatest) (move.number_lt other)
    rw [hsame] at hlt
    exact Nat.lt_irrefl _ hlt
  refine iff_of_true ?_ fun who r hlatest hsame => absurd hsame (hmoved who r hlatest)
  cases move with
  | update => exact absurd rfl (other _)
  | claim | approve => trivial
  | submit | reject => exact ⟨_, rfl⟩

theorem approver_moved (move : t.Move sender now m (some t')) (other : ∀ r, m ≠ .update t.id r)
    (h : t.InStep latest) :
    t'.status.AdmitsApprover t'.approver
      ↔ ∀ sender r, latest = some (sender, r) → t'.status ≠ .approved →
        r.status.AdmitsApprover r.approver := by
  have hlaw := h.approver
  cases move with
  | update => exact absurd rfl (other _)
  | approve => exact iff_of_true trivial fun _ _ _ happroved => absurd rfl happroved
  | claim status | submit status | reject status =>
      rw [status] at hlaw
      simpa [Status.AdmitsApprover] using hlaw

theorem moved (move : t.Move sender now m (some t')) (other : ∀ r, m ≠ .update t.id r)
    (h : t.InStep latest) : t'.InStep latest where
  since who r hlatest :=
    Nat.le_of_lt (Nat.lt_of_le_of_lt (h.since who r hlatest) (move.number_lt other))
  claimant := claimant_moved move other h
  finding := finding_moved move other h
  approver := approver_moved move other h

end

end Task.InStep

namespace Store

theorem inStep_afterAll {events : List Event} {i : TaskId}
    (hstart : ∀ g authority, .start g authority ∈ events → g.tasks = []) {t : Task}
    (ht : (empty.afterAll events).tasks.get? i = some t) :
    t.InStep (empty.latest? (revision? i) events) := by
  refine row_induction (I := Task.InStep) hstart (Task.InStep.posted i) ?_ ?_ ht
  · intro sender now t r move
    cases move with
    | update _ gate => exact .revised gate
  · intro latest sender now t t' m move other h
    exact h.moved move other

/-- An open task without a claimant can be claimed by anyone with an address
but its creator, while it fits the parameters and has not expired. -/
theorem claim_accepted {events : List Event} {i : TaskId} {t : Task}
    (found : (empty.afterAll events).tasks.get? i = some t) (hopened : t.status = .opened)
    (hunclaimed : t.claimant = none) {p : Params} (hp : (empty.afterAll events).params = some p)
    (hfits : t.Fits p) {who : String} (haddress : Address.IsText who) (hother : who ≠ t.creator)
    {now : Time} (hlater : t.createdAt ≤ now) (hexpired : t.expired p now = false)
    (authority : String) :
    (empty.afterAll events).answer? (.message authority who (.claim i) now)
      = some (.updated i .claimed) := by
  have hform := wellFormed_afterAll events found
  have hvalid : t.Valid p := Task.valid_iff_fits.mpr ⟨hform, hfits⟩
  have hclaimed : { t with status := .claimed, claimant := some who, updatedAt := now }.Valid p :=
    hvalid.moved nofun (fun other hsame => Option.some.inj hsame ▸ haddress) hform.approver hlater
  have haccepts : Accepts _ authority who now (.claim i) _ :=
    .claim haddress found hopened hother.symm hunclaimed hp hexpired hclaimed
  exact answer?_eq_some.mpr ⟨_, haccepts, rfl⟩

/-- The claimant of a task goes with its status exactly if the one that the
latest accepted revision gave went with the status that it set, and so do the
approver, unless the task was approved since, and the finding, unless the task
has moved on to another status. An open task without a claimant can be claimed
by anyone but its creator. -/
theorem coherence (events : List Event) (i : TaskId) (t : Task)
    (hstart : ∀ g authority, .start g authority ∈ events → g.tasks = [])
    (ht : (empty.afterAll events).tasks.get? i = some t) :
    (t.status.AdmitsClaimant t.claimant
      ↔ ∀ sender r, empty.latest? (revision? i) events = some (sender, r) →
        t.status ≠ .approved → r.status.AdmitsClaimant r.claimant)
    ∧ (t.status.AdmitsFinding t.finding
      ↔ ∀ sender r, empty.latest? (revision? i) events = some (sender, r) →
        t.status = r.status → r.status.AdmitsFinding r.finding)
    ∧ (t.status.AdmitsApprover t.approver
      ↔ ∀ sender r, empty.latest? (revision? i) events = some (sender, r) →
        t.status ≠ .approved → r.status.AdmitsApprover r.approver)
    ∧ (t.status = .opened → t.claimant = none → ∀ p authority who now,
      (empty.afterAll events).params = some p → t.Fits p → Address.IsText who →
        who ≠ t.creator → t.createdAt ≤ now → t.expired p now = false →
          (empty.afterAll events).answer? (.message authority who (.claim i) now)
            = some (.updated i .claimed)) := by
  have hstep := inStep_afterAll hstart ht
  refine ⟨hstep.claimant, hstep.finding, hstep.approver, ?_⟩
  intro hopened hunclaimed p authority who now hp hfits haddress hother hlater hexpired
  exact claim_accepted ht hopened hunclaimed hp hfits haddress hother hlater hexpired authority

end Store

namespace Sample

/-- The task is open again after its rejection. -/
def untilReopened : List Event :=
  untilReview.take 6

/-- A creator takes a task through its life alone, and nothing that comes with
the statuses goes with them. -/
def handedOver : List Event :=
  [.start Snapshot.default alice,
    sent alice (.create "Fix the pump" "It leaks." bounty) 5,
    sent alice (.update 0 { revision .claimed with approver := some carol }) 6,
    sent alice (.update 0 { revision .submitted with approver := some carol }) 7,
    sent alice (.update 0 { revision .rejected with approver := some carol }) 8,
    sent alice (.update 0 { revision .opened with
      claimant := some bob
      finding := some (.submitted evidence)
      approver := some carol }) 9]

/-- The task that a revision of these makes. -/
def handed (status : Status) (claimant : Option String) (finding : Option Finding) (now : Time) :
    Task :=
  ⟨0, alice, "Fix the pump", "It leaks.", bounty, status, claimant, finding, some carol, 5, now⟩

end Sample

namespace Store

/-- The task of the sample history was in somebody's hands and opened again by
a revision that goes with it. It is there for the next one to claim. -/
theorem coherence_sample :
    ∃ t, (empty.afterAll Sample.untilReopened).tasks.get? 0 = some t ∧ t.status = .opened
      ∧ empty.latest? (revision? 0) Sample.untilReopened
        = some (Sample.alice, Sample.revision .opened)
      ∧ t.claimant = none ∧ t.finding = none ∧ t.approver = none
      ∧ (empty.afterAll Sample.untilReopened).answer? (Sample.sent Sample.carol (.claim 0) 10)
        = some (.updated 0 .claimed) := by
  have ht : (empty.afterAll Sample.untilReopened).tasks.get? 0
      = some { Sample.waiting with
          status := .opened, claimant := none, finding := none, updatedAt := 9 } := by
    decide +kernel
  have hstart : ∀ g authority, .start g authority ∈ Sample.untilReopened → g.tasks = [] :=
    fun _ _ hmem => Sample.tasks_of_start (List.mem_of_mem_take hmem)
  have hlatest : empty.latest? (revision? 0) Sample.untilReopened
      = some (Sample.alice, Sample.revision .opened) := by
    decide +kernel
  have haddress : Address.IsText Sample.carol := by decide +kernel
  obtain ⟨hclaimant, hfinding, happrover, hclaim⟩ := coherence _ 0 _ hstart ht
  rw [hlatest] at hclaimant hfinding happrover
  have hnobody := hclaimant.mpr (by rintro _ _ ⟨⟩ _; rfl)
  refine ⟨_, ht, rfl, hlatest, hnobody, ?_, ?_, ?_⟩
  · exact hfinding.mpr (by rintro _ _ ⟨⟩ _; rfl)
  · exact happrover.mpr (by rintro _ _ ⟨⟩ _; rfl)
  · exact hclaim rfl hnobody Params.default Sample.alice Sample.carol 10 (by decide +kernel)
      ⟨by decide, by decide, by decide, by decide, by decide⟩ haddress (by decide) (by decide)
      (by decide)

/-- By revisions alone a task is claimed by nobody, waits for a review of
nothing, is rejected for no reason, and is opened in the hands of somebody who
has handed in evidence for it. It has an approver all the time, and the next
one who would claim it is refused. -/
theorem out_of_step :
    (∃ t, (empty.afterAll (Sample.handedOver.take 3)).tasks.get? 0 = some t
      ∧ t.status = .claimed ∧ t.claimant = none ∧ t.approver = some Sample.carol)
    ∧ (∃ t, (empty.afterAll (Sample.handedOver.take 4)).tasks.get? 0 = some t
      ∧ t.status = .submitted ∧ t.claimant = none ∧ t.finding = none
      ∧ t.approver = some Sample.carol)
    ∧ (∃ t, (empty.afterAll (Sample.handedOver.take 5)).tasks.get? 0 = some t
      ∧ t.status = .rejected ∧ t.claimant = none ∧ t.finding = none
      ∧ t.approver = some Sample.carol)
    ∧ ∃ t, (empty.afterAll Sample.handedOver).tasks.get? 0 = some t
      ∧ t.status = .opened ∧ t.claimant = some Sample.bob
      ∧ t.finding = some (.submitted Sample.evidence) ∧ t.approver = some Sample.carol
      ∧ (empty.afterAll Sample.handedOver).apply Sample.alice Sample.carol (.claim 0) 10
        = .error .alreadyClaimed := by
  have hclaimed : (empty.afterAll (Sample.handedOver.take 3)).tasks.get? 0
      = some (Sample.handed .claimed none none 6) := by decide +kernel
  have hsubmitted : (empty.afterAll (Sample.handedOver.take 4)).tasks.get? 0
      = some (Sample.handed .submitted none none 7) := by decide +kernel
  have hrejected : (empty.afterAll (Sample.handedOver.take 5)).tasks.get? 0
      = some (Sample.handed .rejected none none 8) := by decide +kernel
  have hopened : (empty.afterAll Sample.handedOver).tasks.get? 0
      = some (Sample.handed .opened (some Sample.bob) (some (.submitted Sample.evidence)) 9) := by
    decide +kernel
  refine ⟨⟨_, hclaimed, rfl, rfl, rfl⟩, ⟨_, hsubmitted, rfl, rfl, rfl, rfl⟩,
    ⟨_, hrejected, rfl, rfl, rfl, rfl⟩, ⟨_, hopened, rfl, rfl, rfl, rfl, ?_⟩⟩
  decide +kernel

end Store

end BountyBoard

import BountyBoard.Proofs.Approval
import BountyBoard.Proofs.Governance

/-!
# Work that is done is paid for

Somebody posts a task, somebody else claims it, hands in evidence and is
paid: on any board that has been started, and for any work within its rules
(`Work.Allowed`), each of the four messages is accepted (`work_is_paid`).
Nothing that others do in the meantime can get in the way. What they can do is
to replace the parameters, which are then the parameters for this task as
well, or to address the task itself; apart from these two kinds of messages,
every event leaves the task and the parameters as they are (`Holds.aside`).

The four steps go from task to task, `opened`, `claimed`, `submitted` and
`approved`. Each step asks for a store that `Holds` one of them and leaves one
that holds the next.
-/

namespace BountyBoard

/-- A piece of work, from its posting to its payment. -/
structure Work where
  creator : String
  worker : String
  title : String
  description : String
  bounty : Coin
  evidence : Evidence
  /-- Names the approval. -/
  txHash : String
  postedAt : Time
  claimedAt : Time
  submittedAt : Time
  approvedAt : Time
deriving Repr, DecidableEq

namespace Work

/-- The work is within the rules of a board with the parameters `p`. -/
structure Allowed (w : Work) (p : Params) : Prop where
  creator : Address.IsText w.creator
  worker : Address.IsText w.worker
  other : w.creator ≠ w.worker
  title : Text.trim w.title ≠ ""
  titleLength : w.title.length ≤ p.maxTitleLength.toNat
  description : Text.trim w.description ≠ ""
  descriptionLength : w.description.length ≤ p.maxDescriptionLength.toNat
  denom : w.bounty.denom = p.denom
  min : p.minBounty.amount ≤ w.bounty.amount
  max : w.bounty.amount ≤ p.maxBounty.amount
  hash : Text.trim w.evidence.hash ≠ ""
  kind : p.allows w.evidence.kind = true
  timestamp : 0 < w.evidence.timestamp
  posted : 0 < w.postedAt
  claimed : w.postedAt ≤ w.claimedAt
  submitted : w.postedAt ≤ w.submittedAt
  approved : w.postedAt ≤ w.approvedAt
  claimInTime : Within w.postedAt w.claimedAt p.taskExpiry
  submissionInTime : Within w.claimedAt w.submittedAt p.claimDeadline
  reviewInTime : Within w.submittedAt w.approvedAt p.submissionDeadline

section

variable (w : Work) (authority : String) (i : TaskId)

/-! ## The messages and the task -/

def posting : Event :=
  .message authority w.creator (.create w.title w.description w.bounty) w.postedAt

def claiming : Event :=
  .message authority w.worker (.claim i) w.claimedAt

def submitting : Event :=
  .message authority w.worker (.submit i w.evidence) w.submittedAt

def approving : Event :=
  .message authority w.creator (.approve i w.txHash) w.approvedAt

def opened : Task :=
  Task.posted i w.creator w.title w.description w.bounty w.postedAt

def claimed : Task :=
  { w.opened i with status := .claimed, claimant := some w.worker, updatedAt := w.claimedAt }

def submitted : Task :=
  { w.claimed i with
    status := .submitted, finding := some (.submitted w.evidence), updatedAt := w.submittedAt }

def approved : Task :=
  { w.submitted i with
    status := .approved, approver := some w.creator, updatedAt := w.approvedAt }

def reward : Reward :=
  ⟨i, w.worker, w.bounty, w.approvedAt, w.txHash⟩

end

/-! ## The task is valid throughout -/

namespace Allowed

variable {w : Work} {p : Params} (h : w.Allowed p) (hp : p.fault? = none) (i : TaskId)
include h hp

theorem valid_opened : (w.opened i).Valid p := by
  have hmin : p.minBounty.isZero = false := by
    rw [Params.fault?, Task.ite_some_eq_none] at hp
    exact Bool.eq_false_iff.mpr hp.1
  have hpositive : 0 < w.bounty.amount.toNat := by
    have hle := Amount.le_def.mp h.min
    simp only [Coin.isZero, beq_eq_false_iff_ne] at hmin
    omega
  refine Task.valid_iff_fits.mpr
    ⟨?_, h.titleLength, h.descriptionLength, h.denom, h.min, h.max⟩
  exact
    { title := h.title
      description := h.description
      bounty := hpositive
      status := fun h => by cases h
      creator := h.creator
      claimant := fun _ h => by cases h
      approver := fun _ h => by cases h
      created := h.posted
      updated := Int64.le_refl _ }

theorem valid_claimed : (w.claimed i).Valid p :=
  (h.valid_opened hp i).moved nofun (fun _ hwho => Option.some.inj hwho ▸ h.worker) nofun h.claimed

theorem valid_submitted : (w.submitted i).Valid p :=
  (h.valid_claimed hp i).moved nofun (fun _ hwho => Option.some.inj hwho ▸ h.worker) nofun
    h.submitted

theorem valid_approved : (w.approved i).Valid p :=
  (h.valid_submitted hp i).moved nofun (fun _ hwho => Option.some.inj hwho ▸ h.worker)
    (fun _ hwho => Option.some.inj hwho ▸ h.creator) h.approved

end Allowed

end Work

/-! ## What others do -/

/-- The event is no message to the task `i`, and none that sets the parameters. -/
def Event.Aside (i : TaskId) : Event → Prop
  | .start .. => True
  | .message _ _ m _ => m.addressee? ≠ some i ∧ ∀ p, m ≠ .setParams p

namespace Store

/-- The store of a board with the parameters `p` and the task `t`. -/
structure Holds (s : Store) (p : Params) (t : Task) : Prop where
  sound : s.Sound
  params : s.params = some p
  task : s.tasks.get? t.id = some t

variable {s : Store} {p : Params} {t : Task}

/-- What happens aside leaves the task and the parameters alone. -/
theorem Holds.aside (h : s.Holds p t) {event : Event} (aside : event.Aside t.id) :
    (s.next event).Holds p t where
  sound := h.sound.next event
  params := by
    cases s.governs event with
    | stays params => rw [params, h.params]
    | founds _ _ blank => cases blank.symm.trans h.params
    | replaces message =>
        subst message
        exact absurd rfl (aside.2 _)
  task := by
    cases s.outcome event with
    | refused same => rw [same, h.task]
    | started _ blank => cases blank.symm.trans h.params
    | accepted message accepts later =>
        subst message
        rw [later]
        cases accepts.rowStep t.id with
        | stays same => rw [same, h.task]
        | posted _ next =>
            -- a new task takes an id that no task has
            have hfree := h.sound.tasks_nextId
            rw [← next, h.task] at hfree
            cases hfree
        | moved found move =>
            obtain rfl := Option.some.inj (found.symm.trans h.task)
            exact absurd move.addressee? aside.1

theorem Holds.afterAll (h : s.Holds p t) {events : List Event}
    (aside : ∀ event ∈ events, event.Aside t.id) : (s.afterAll events).Holds p t :=
  afterAll_induction (P := fun u => u.Holds p t) h
    fun _ event hmem hholds => hholds.aside (aside event hmem)

/-- A message that writes a task into a board, and no parameters, leaves a
board with this task. -/
theorem holds_written (hs : s.Sound) (hp : s.params = some p) {authority sender : String}
    {m : Message} {now : Time} {rs : List Reward} {next : Option TaskId} {answer : Response}
    (haccepts : s.Accepts authority sender now m
      ⟨{ tasks := [t], rewards := rs, nextId := next }, answer⟩) :
    s.answer? (.message authority sender m now) = some answer
      ∧ (s.next (.message authority sender m now)).Holds p t := by
  have hnext : s.next (.message authority sender m now) = _ := after_eq haccepts
  refine ⟨answer?_eq_some.mpr ⟨_, haccepts, rfl⟩, hs.next _, ?_, ?_⟩
  · rw [hnext]
    exact hp
  · rw [hnext]
    exact Table.get?_insert_self s.tasks t

/-! ## The four steps -/

variable {w : Work} {i : TaskId}

theorem post_accepted (hs : s.Sound) (hp : s.params = some p) (hsound : p.fault? = none)
    (room : s.nextId.toNat + 1 < UInt64.size) (hw : w.Allowed p) (authority : String) :
    s.answer? (w.posting authority) = some (.created s.nextId)
      ∧ (s.next (w.posting authority)).Holds p (w.opened s.nextId) :=
  holds_written hs hp (.create hw.creator hp (hw.valid_opened hsound _) room)

theorem Holds.claim_accepted (h : s.Holds p (w.opened i)) (hsound : p.fault? = none)
    (hw : w.Allowed p) (authority : String) :
    s.answer? (w.claiming authority i) = some (.updated i .claimed)
      ∧ (s.next (w.claiming authority i)).Holds p (w.claimed i) := by
  have hcreated : 0 ≤ w.postedAt.toInt := Int.le_of_lt (Int64.lt_iff_toInt_lt.mp hw.posted)
  have htime : (w.opened i).expired p w.claimedAt = false :=
    (pastDeadline_eq_false_iff hcreated).mpr hw.claimInTime
  exact holds_written h.sound h.params
    (.claim hw.worker h.task rfl hw.other rfl h.params htime (hw.valid_claimed hsound i))

theorem Holds.submit_accepted (h : s.Holds p (w.claimed i)) (hsound : p.fault? = none)
    (hw : w.Allowed p) (authority : String) :
    s.answer? (w.submitting authority i) = some (.updated i .submitted)
      ∧ (s.next (w.submitting authority i)).Holds p (w.submitted i) := by
  have hform := (Task.valid_iff_fits.mp (hw.valid_claimed hsound i)).1
  have htime : (w.claimed i).claimExpired p w.submittedAt = false :=
    (hform.within_iff nofun).mpr hw.submissionInTime
  have hevidence : w.evidence.fault? p = none :=
    Evidence.fault?_eq_none.mpr ⟨hw.hash, hw.kind, hw.timestamp⟩
  exact holds_written h.sound h.params
    (.submit hw.worker h.task rfl rfl h.params hevidence htime (hw.valid_submitted hsound i))

theorem Holds.approve_accepted (h : s.Holds p (w.submitted i)) (hsound : p.fault? = none)
    (hw : w.Allowed p) (authority : String) :
    s.answer? (w.approving authority i) = some (.approved (w.reward i))
      ∧ (s.next (w.approving authority i)).Holds p (w.approved i)
      ∧ (s.next (w.approving authority i)).rewards.get? i = some (w.reward i) := by
  have hform := (Task.valid_iff_fits.mp (hw.valid_submitted hsound i)).1
  have htime : (w.submitted i).reviewExpired p w.approvedAt = false :=
    (hform.within_iff nofun).mpr hw.reviewInTime
  have haccepts : s.Accepts authority w.creator w.approvedAt (.approve i w.txHash)
      ⟨{ tasks := [w.approved i], rewards := [w.reward i] }, .approved (w.reward i)⟩ :=
    .approve hw.creator h.task rfl rfl h.params htime (h.sound.unpaid h.task rfl) rfl
      (hw.valid_approved hsound i)
  obtain ⟨hanswer, hholds⟩ := holds_written h.sound h.params haccepts
  refine ⟨hanswer, hholds, ?_⟩
  have hnext : s.next (w.approving authority i) = _ := after_eq haccepts
  rw [hnext]
  exact Table.get?_insert_self s.rewards (w.reward i)

/-- Work within the rules is paid for. On a board with parameters that has
ids left, the four messages are accepted one after the other, whatever anyone
sends in between, as long as it is neither addressed to the task nor meant to
set the parameters. In the end the task is approved, and its reward is the
bounty, paid to the worker. -/
theorem work_is_paid (hreach : Reachable s) (hp : s.params = some p)
    (room : s.nextId.toNat + 1 < UInt64.size) (hw : w.Allowed p)
    {first second third : List Event}
    (aside : ∀ event ∈ first ++ second ++ third, event.Aside s.nextId)
    (a₀ a₁ a₂ a₃ : String) :
    s.answer? (w.posting a₀) = some (.created s.nextId)
    ∧ (s.afterAll (w.posting a₀ :: first)).answer? (w.claiming a₁ s.nextId)
      = some (.updated s.nextId .claimed)
    ∧ (s.afterAll (w.posting a₀ :: first ++ w.claiming a₁ s.nextId :: second)).answer?
        (w.submitting a₂ s.nextId)
      = some (.updated s.nextId .submitted)
    ∧ (s.afterAll (w.posting a₀ :: first ++ w.claiming a₁ s.nextId :: second
          ++ w.submitting a₂ s.nextId :: third)).answer? (w.approving a₃ s.nextId)
      = some (.approved (w.reward s.nextId))
    ∧ (s.afterAll (w.posting a₀ :: first ++ w.claiming a₁ s.nextId :: second
          ++ w.submitting a₂ s.nextId :: third ++ [w.approving a₃ s.nextId])).tasks.get? s.nextId
      = some (w.approved s.nextId)
    ∧ (s.afterAll (w.posting a₀ :: first ++ w.claiming a₁ s.nextId :: second
          ++ w.submitting a₂ s.nextId :: third ++ [w.approving a₃ s.nextId])).rewards.get? s.nextId
      = some (w.reward s.nextId) := by
  have hsound : p.fault? = none := by
    obtain ⟨events, rfl⟩ := reachable_iff.mp hreach
    exact params_sound_afterAll events hp
  simp only [List.mem_append] at aside
  obtain ⟨hposted, hopened⟩ := post_accepted hreach.sound hp hsound room hw a₀
  have hfirst := hopened.afterAll fun event hmem => aside event (.inl (.inl hmem))
  obtain ⟨hclaim, hclaimed⟩ := hfirst.claim_accepted hsound hw a₁
  have hsecond := hclaimed.afterAll fun event hmem => aside event (.inl (.inr hmem))
  obtain ⟨hsubmit, hsubmitted⟩ := hsecond.submit_accepted hsound hw a₂
  have hthird := hsubmitted.afterAll fun event hmem => aside event (.inr hmem)
  obtain ⟨happrove, hpaid, hreward⟩ := hthird.approve_accepted hsound hw a₃
  simp only [afterAll_append]
  exact ⟨hposted, hclaim, hsubmit, happrove, hpaid.task, hreward⟩

end Store

namespace Sample

/-- Carol offers what Bob does, at the latest moments there are. -/
def painting : Work where
  creator := carol
  worker := bob
  title := "Paint the pump"
  description := "In green."
  bounty := bounty
  evidence := evidence
  txHash := "tx-1"
  postedAt := 20
  claimedAt := 2592020
  submittedAt := 3196820
  approvedAt := 4406420

/-- What goes on while Bob paints: a second snapshot is tried in vain, and
other tasks go their way. -/
def meanwhile : List Event :=
  [.start Snapshot.default bob,
    sent alice (.approve 0 "tx-2") 30,
    sent bob (.create "Clean the pump" "With a brush." bounty) 31]

end Sample

namespace Store

/-- The painting is paid for on the board of the sample history, with other
things going on between its claim and its submission. -/
theorem work_is_paid_sample :
    Sample.painting.Allowed Params.default
    ∧ ((empty.afterAll Sample.untilReview).afterAll
        (Sample.painting.posting Sample.alice :: []
          ++ Sample.painting.claiming Sample.alice 1 :: Sample.meanwhile
          ++ Sample.painting.submitting Sample.alice 1 :: []
          ++ [Sample.painting.approving Sample.alice 1])).rewards.get? 1
      = some ⟨1, Sample.bob, Sample.bounty, 4406420, "tx-1"⟩ := by
  have hid : (empty.afterAll Sample.untilReview).nextId = 1 := by
    rw [Sample.board_untilReview, Sample.waitingBoard]
  have hp : (empty.afterAll Sample.untilReview).params = some Params.default := by
    rw [Sample.board_untilReview, Sample.waitingBoard]
  have hroom : (empty.afterAll Sample.untilReview).nextId.toNat + 1 < UInt64.size := by
    rw [hid]
    decide
  have hallowed : Sample.painting.Allowed Params.default :=
    { creator := Sample.isText_carol
      worker := Sample.isText_bob
      other := by decide
      title := by decide
      titleLength := by decide
      description := by decide
      descriptionLength := by decide
      denom := by decide
      min := by decide
      max := by decide
      hash := by decide
      kind := by decide
      timestamp := by decide
      posted := by decide
      claimed := by decide
      submitted := by decide
      approved := by decide
      claimInTime := fun _ => by decide
      submissionInTime := fun _ => by decide
      reviewInTime := fun _ => by decide }
  have haside : ∀ event ∈ [] ++ Sample.meanwhile ++ [],
      event.Aside (empty.afterAll Sample.untilReview).nextId := by
    rw [hid]
    intro event hmem
    simp only [Sample.meanwhile, Sample.sent, List.nil_append, List.append_nil, List.mem_cons,
      List.not_mem_nil, or_false] at hmem
    rcases hmem with rfl | rfl | rfl
    · trivial
    · exact ⟨by decide, fun _ h => by cases h⟩
    · exact ⟨by decide, fun _ h => by cases h⟩
  have hpaid := work_is_paid (Reachable.empty.afterAll Sample.untilReview) hp hroom hallowed haside
    Sample.alice Sample.alice Sample.alice Sample.alice
  rw [hid] at hpaid
  exact ⟨hallowed, hpaid.2.2.2.2.2⟩

end Store

end BountyBoard

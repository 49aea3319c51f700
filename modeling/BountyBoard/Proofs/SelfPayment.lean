import BountyBoard.Proofs.Row

/-!
# Nobody is paid for a task of their own

A creator cannot claim their own task, so the claimant of a task is somebody
else. But the claimant of a task can also be set by a revision, and there
the creator may well name themselves; submitting and approving then ask no
more questions (`self_payment`). As long as no accepted revision of a task
does that, an approval of it pays somebody else (`no_self_payment`).
-/

namespace BountyBoard

/-- Somebody else than the creator works on the task, if anybody does. -/
def Task.InOtherHands (t : Task) : Prop :=
  t.claimant ≠ some t.creator

theorem Task.Move.inOtherHands {sender : String} {now : Time} {t t' : Task} {m : Message}
    (move : t.Move sender now m (some t')) (hother : ∀ r, m ≠ .update t.id r)
    (h : t.InOtherHands) : t'.InOtherHands := by
  cases move with
  | update => exact absurd rfl (hother _)
  | claim _ other => exact fun hsame => other (Option.some.inj hsame).symm
  | submit => exact h
  | approve => exact h
  | reject => exact h

namespace Store

/-- A task is in other hands unless the latest revision of it named its own
sender as the claimant. -/
theorem inOtherHands_afterAll {events : List Event} {i : TaskId}
    (hstart : ∀ g authority, .start g authority ∈ events → g.tasks = []) {t : Task}
    (ht : (empty.afterAll events).tasks.get? i = some t)
    (hlatest : ∀ sender r, empty.latest? (revision? i) events = some (sender, r) →
      r.claimant ≠ some sender) : t.InOtherHands := by
  refine row_induction (I := fun latest t =>
      (∀ sender r, latest = some (sender, r) → r.claimant ≠ some sender) → t.InOtherHands)
    hstart ?_ ?_ ?_ ht hlatest
  · intro sender title description bounty now _ hself
    cases hself
  · intro sender now t r move hnamed
    cases move with
    | update creator =>
        subst creator
        exact hnamed _ r rfl
  · intro latest sender now t t' m move other h hnamed
    exact move.inOtherHands other (h hnamed)

/-- An approval pays somebody else than the sender, who is the creator, if no
accepted revision of the task named its own sender as the claimant. -/
theorem no_self_payment (events : List Event) (i : TaskId)
    (hstart : ∀ g authority, .start g authority ∈ events → g.tasks = [])
    (hrevised : Along (Revised i fun sender r => r.claimant ≠ some sender) empty events)
    (authority sender txHash : String) (now : Time) (r : Reward)
    (hanswer : (empty.afterAll events).answer? (.message authority sender (.approve i txHash) now)
      = some (.approved r)) :
    r.claimant ≠ sender
    ∧ ∃ t, (empty.afterAll events).tasks.get? i = some t ∧ t.creator = sender
      ∧ t.claimant = some r.claimant := by
  obtain ⟨e, haccepts, hresponse⟩ := answer?_eq_some.mp hanswer
  obtain ⟨paid, hpaid, rfl, hpays⟩ := haccepts.pays
  rw [hresponse] at hpaid
  cases hpaid
  obtain ⟨t, ht, hcreator, hclaimant, -, -⟩ := hpays.task
  have hother := inOtherHands_afterAll hstart ht fun _ _ => revised_latest hrevised
  refine ⟨?_, t, ht, hcreator, hclaimant⟩
  intro hself
  rw [Task.InOtherHands, hclaimant, hcreator, hself] at hother
  exact hother rfl

end Store

namespace Sample

/-- A task goes to its own creator, who hands in evidence for it. -/
def claimedByCreator : List Event :=
  [.start Snapshot.default alice,
    sent alice (.create "Fix the pump" "It leaks." bounty) 5,
    sent alice (.update 0 { revision .claimed with claimant := some alice }) 6,
    sent alice (.submit 0 evidence) 7]

end Sample

namespace Store

/-- The approval in the sample history pays the worker. -/
theorem no_self_payment_sample :
    (empty.afterAll Sample.untilReview).answer? Sample.approval
      = some (.approved ⟨0, Sample.bob, Sample.bounty, 12, "tx-1"⟩)
    ∧ Sample.bob ≠ Sample.alice := by
  have hanswer : (empty.afterAll Sample.untilReview).answer? Sample.approval
      = some (.approved ⟨0, Sample.bob, Sample.bounty, 12, "tx-1"⟩) := by decide +kernel
  have hrevised :
      Along (Revised 0 fun sender r => r.claimant ≠ some sender) empty Sample.untilReview := by
    simp only [Sample.untilReview, Sample.sent, Along, Revised, true_and, and_true]
    exact fun _ _ h => by cases h
  have hstart : ∀ g authority, .start g authority ∈ Sample.untilReview → g.tasks = [] :=
    fun _ _ => Sample.tasks_of_start
  exact ⟨hanswer, (no_self_payment _ 0 hstart hrevised _ _ _ _ _ hanswer).1⟩

/-- A creator who revises a task into their own hands is paid for it. -/
theorem self_payment :
    (empty.afterAll Sample.claimedByCreator).answer?
        (Sample.sent Sample.alice (.approve 0 "tx-1") 8)
      = some (.approved ⟨0, Sample.alice, Sample.bounty, 8, "tx-1"⟩) := by
  decide +kernel

end Store

end BountyBoard

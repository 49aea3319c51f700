import BountyBoard.Proofs.Approval
import BountyBoard.Proofs.Deadline

/-!
# When a deadline has passed

A deadline has `Passed` when it is later than the reference time plus the
duration, counted in whole numbers, and so it is no longer `Within` the duration.
The check counts in 64 bits, where two numbers may be cut off at the latest time:
the duration and the sum.

The cut of the sum never matters, since no time is later than the latest one
(`pastDeadline_iff`). The cut of the duration matters only before the epoch: a
long duration that is counted from there ends at a time that can still come, and
the cut makes it end sooner. So check and law agree at all times exactly when the
reference is not negative or the duration is not cut (`pastDeadline_agrees_iff`).
The times of a stored task are all after the epoch, whatever the parameters are,
and this is why no deadline of the board is ever missed or made too early.
-/

namespace BountyBoard

/-- It is later than the reference time plus the duration. A duration of zero
sets no deadline. -/
def Passed (reference now : Time) (duration : Count) : Prop :=
  duration ≠ 0 ∧ reference.toInt + duration.toNat < now.toInt

instance (reference now : Time) (duration : Count) : Decidable (Passed reference now duration) :=
  inferInstanceAs (Decidable (_ ∧ _))

variable {reference now later : Time} {duration : Count}

/-- Only the duration has to be cut off: no time is later than the latest. -/
theorem pastDeadline_iff :
    pastDeadline now reference duration = true
      ↔ duration ≠ 0 ∧ reference.toInt + min (duration.toNat : Int) latestTime < now.toInt := by
  have hlatest : now.toInt ≤ latestTime := Int64.toInt_le now
  rw [pastDeadline, Bool.and_eq_true, decide_eq_true_iff, decide_eq_true_iff]
  refine and_congr_right fun _ => ?_
  omega

theorem passed_iff : Passed reference now duration ↔ ¬Within reference now duration := by
  rw [Passed, Within, Classical.not_imp, Int.not_le]

/-- Counted from the epoch or later, the law is what is checked. -/
theorem pastDeadline_iff_passed (h : 0 ≤ reference.toInt) :
    pastDeadline now reference duration = true ↔ Passed reference now duration := by
  rw [passed_iff, ← pastDeadline_eq_false_iff h, Bool.not_eq_false]

/-- A deadline that has passed stays so, from whatever time it is counted. -/
theorem pastDeadline_mono (hlater : now ≤ later)
    (h : pastDeadline now reference duration = true) :
    pastDeadline later reference duration = true := by
  have hle := Int64.le_iff_toInt_le.mp hlater
  obtain ⟨hduration, hpast⟩ := pastDeadline_iff.mp h
  exact pastDeadline_iff.mpr ⟨hduration, by omega⟩

/-- Where the check and the law agree at all times. Before the epoch, a
duration that is cut off ends one second after the cut by the check, and not
by the law. -/
theorem pastDeadline_agrees_iff :
    (∀ now, pastDeadline now reference duration = true ↔ Passed reference now duration)
      ↔ 0 ≤ reference.toInt ∨ (duration.toNat : Int) ≤ latestTime := by
  constructor
  · intro h
    by_contra hnot
    obtain ⟨hnegative, hlong⟩ := not_or.mp hnot
    have hlatest : latestTime = 9223372036854775807 := rfl
    have hearliest := Int64.le_toInt reference
    generalize hend : Int64.ofInt (reference.toInt + latestTime + 1) = now
    have hnow : now.toInt = reference.toInt + latestTime + 1 := by
      rw [← hend]
      exact Int64.toInt_ofInt_of_le (by omega) (by omega)
    have hduration : duration ≠ 0 := by
      rintro rfl
      exact hlong (by decide)
    have hpast : pastDeadline now reference duration = true :=
      pastDeadline_iff.mpr ⟨hduration, by omega⟩
    have hpassed := ((h now).mp hpast).2
    omega
  · rintro (hreference | hshort) now
    · exact pastDeadline_iff_passed hreference
    · rw [pastDeadline_iff, Int.min_eq_left hshort, Passed]

namespace Task

variable {t : Task} {p : Params}

/-- The deadline of a task that somebody has claimed. -/
theorem claimed_past_iff (h : 0 ≤ t.updatedAt.toInt) :
    (t.claimant.isSome && pastDeadline now t.updatedAt duration) = true
      ↔ t.claimant ≠ none ∧ Passed t.updatedAt now duration := by
  rw [Bool.and_eq_true, Option.isSome_iff_ne_none, pastDeadline_iff_passed h]

theorem claimed_past_mono (hlater : now ≤ later)
    (h : (t.claimant.isSome && pastDeadline now t.updatedAt duration) = true) :
    (t.claimant.isSome && pastDeadline later t.updatedAt duration) = true := by
  rw [Bool.and_eq_true] at h ⊢
  exact ⟨h.1, pastDeadline_mono hlater h.2⟩

end Task

namespace Store

/-- The three deadlines of a task are checked in 64 bits as the law has it in
whole numbers, if the task was not created before the epoch nor changed before
its creation, as every stored task was not. No deadline that has passed is open
again later. -/
theorem deadlines_exact :
    (∀ (t : Task) (p : Params), 0 < t.createdAt → t.createdAt ≤ t.updatedAt → ∀ now,
      (t.expired p now = true ↔ Passed t.createdAt now p.taskExpiry)
      ∧ (t.claimExpired p now = true
        ↔ t.claimant ≠ none ∧ Passed t.updatedAt now p.claimDeadline)
      ∧ (t.reviewExpired p now = true
        ↔ t.claimant ≠ none ∧ Passed t.updatedAt now p.submissionDeadline))
    ∧ (∀ (t : Task) (p : Params) (now later : Time), now ≤ later →
      (t.expired p now = true → t.expired p later = true)
      ∧ (t.claimExpired p now = true → t.claimExpired p later = true)
      ∧ (t.reviewExpired p now = true → t.reviewExpired p later = true))
    ∧ ∀ s, Reachable s → ∀ i t, s.tasks.get? i = some t →
      0 < t.createdAt ∧ t.createdAt ≤ t.updatedAt := by
  refine ⟨?_, ?_, ?_⟩
  · intro t p hcreated hupdated now
    have hzero : (0 : Int64).toInt = 0 := rfl
    have hpositive := Int64.lt_iff_toInt_lt.mp hcreated
    have hle := Int64.le_iff_toInt_le.mp hupdated
    exact ⟨pastDeadline_iff_passed (by omega), Task.claimed_past_iff (by omega),
      Task.claimed_past_iff (by omega)⟩
  · intro t p now later hlater
    exact ⟨pastDeadline_mono hlater, Task.claimed_past_mono hlater,
      Task.claimed_past_mono hlater⟩
  · intro s hs i t ht
    have hform := hs.wellFormed ht
    exact ⟨hform.created, hform.updated⟩

end Store

namespace Sample

/-- Tasks that never expire, though their duration is not zero. -/
def patient : Params :=
  { Params.default with taskExpiry := 18446744073709551615, claimDeadline := 10 }

end Sample

namespace Store

/-- The sample task was created at 5 and changed at 11. It does not expire even
at the latest time, and the deadline for its submission passes after 21. -/
theorem deadlines_exact_sample :
    0 < Sample.waiting.createdAt ∧ Sample.waiting.createdAt ≤ Sample.waiting.updatedAt
    ∧ Sample.waiting.expired Sample.patient Int64.maxValue ≠ true
    ∧ Sample.waiting.claimExpired Sample.patient 21 ≠ true
    ∧ Sample.waiting.claimExpired Sample.patient 22 = true
    ∧ (22 : Time) ≤ 30 ∧ Sample.waiting.claimExpired Sample.patient 30 = true := by
  obtain ⟨hexact, hstays, hstored⟩ := deadlines_exact
  have hreachable : Reachable (empty.afterAll Sample.untilReview) :=
    Reachable.empty.afterAll Sample.untilReview
  obtain ⟨hcreated, hupdated⟩ := hstored _ hreachable 0 _ Sample.task_untilReview
  have hlaw := hexact Sample.waiting Sample.patient hcreated hupdated
  have hpast : Sample.waiting.claimExpired Sample.patient 22 = true :=
    (hlaw 22).2.1.mpr (by decide)
  have hlater : (22 : Time) ≤ 30 := by decide
  refine ⟨hcreated, hupdated, ?_, ?_, hpast, hlater, ?_⟩
  · rw [Ne, (hlaw Int64.maxValue).1]
    decide
  · rw [Ne, (hlaw 21).2.1]
    decide
  · exact (hstays _ _ 22 30 hlater).2.1 hpast

end Store

end BountyBoard

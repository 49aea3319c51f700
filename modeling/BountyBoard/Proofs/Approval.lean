import BountyBoard.Proofs.Deadline
import BountyBoard.Proofs.StoredTasks

/-!
# When an approval is granted

An approval passes more guards than it needs. On a board with a history, the
task that waits for its review has no reward yet (`Sound.unpaid`), the reward
made out for it is the one that it calls for, and of the rules for tasks only
those can be broken that the parameters set, since everything else about a
stored task was in order when it was written (`wellFormed_afterAll`). What is
left to check is said in `approval_granted_iff`, with the deadline in exact
numbers, and what is left of the refusals in `ApprovalRefusal`.
-/

namespace BountyBoard

namespace Store

/-- A task that can still be approved has no reward. -/
theorem Sound.unpaid {s : Store} (h : s.Sound) {i : TaskId} {t : Task}
    (found : s.tasks.get? i = some t) (status : t.status = .submitted) :
    s.rewards.get? i = none := by
  rw [Option.eq_none_iff_forall_ne_some]
  intro r hr
  rcases h.settled hr found with hs | hs <;> rw [status] at hs <;> cases hs

theorem Reachable.wellFormed {s : Store} (h : Reachable s) {i : TaskId} {t : Task}
    (found : s.tasks.get? i = some t) : t.WellFormed := by
  obtain ⟨events, rfl⟩ := reachable_iff.mp h
  exact wellFormed_afterAll events found

end Store

/-! ## What can be wrong -/

/-- What can be wrong with a stored task when it is about to be approved at
the time `now`. -/
inductive ApprovalFault (p : Params) (t : Task) (now : Time) : Task.Fault → Prop
  | title (long : p.maxTitleLength.toNat < t.title.length) :
      ApprovalFault p t now (.titleTooLong p.maxTitleLength.toNat t.title.length)
  | description (long : p.maxDescriptionLength.toNat < t.description.length) :
      ApprovalFault p t now
        (.descriptionTooLong p.maxDescriptionLength.toNat t.description.length)
  | denom (other : t.bounty.denom ≠ p.denom) :
      ApprovalFault p t now (.wrongDenom p.denom t.bounty.denom)
  | min (low : t.bounty.amount < p.minBounty.amount) :
      ApprovalFault p t now (.bountyBelowMin p.minBounty.amount t.bounty.amount)
  | max (high : p.maxBounty.amount < t.bounty.amount) :
      ApprovalFault p t now (.bountyAboveMax p.maxBounty.amount t.bounty.amount)
  | early (before : now < t.createdAt) :
      ApprovalFault p t now (.updatedBeforeCreated t.createdAt now)

/-- Why an approval can be refused on a board with the parameters `p`. No
other refusal is ever given: neither that there is a reward already or that
the reward does not match its task, except for the lack of a claimant, nor
that an address, an empty text, a bounty of zero or the status of the task
breaks a rule. -/
inductive ApprovalRefusal (s : Store) (p : Params) (approver : String) (id : TaskId)
    (now : Time) : Refusal → Prop
  | address {fault : Address.Fault} (bad : Address.ofText approver = .error fault) :
      ApprovalRefusal s p approver id now (.badAddress fault)
  | missing (none : s.tasks.get? id = none) :
      ApprovalRefusal s p approver id now (.noTask id)
  | status {t : Task} (found : s.tasks.get? id = some t) (other : t.status ≠ .submitted) :
      ApprovalRefusal s p approver id now (.wrongStatus .submitted t.status)
  | creator {t : Task} (found : s.tasks.get? id = some t) (other : t.creator ≠ approver) :
      ApprovalRefusal s p approver id now .notCreator
  | late {t : Task} (found : s.tasks.get? id = some t)
      (past : ¬Within t.updatedAt now p.submissionDeadline) :
      ApprovalRefusal s p approver id now .reviewExpired
  | unclaimed {t : Task} (found : s.tasks.get? id = some t) (none : t.claimant = none) :
      ApprovalRefusal s p approver id now (.badReward .noClaimant)
  | task {t : Task} {fault : Task.Fault} (found : s.tasks.get? id = some t)
      (broken : ApprovalFault p t now fault) :
      ApprovalRefusal s p approver id now (.badTask fault)

/-- A well-formed task that is about to be approved can only break limits,
or come before its own creation. One case for each group of rules. -/
theorem Task.WellFormed.approvalFault {t : Task} (h : t.WellFormed) {p : Params} {now : Time}
    {approver : String} (happrover : Address.IsText approver) {fault : Task.Fault}
    (hfault : fault? p { t with
      status := .approved, approver := some approver, updatedAt := now } = some fault) :
    ApprovalFault p t now fault := by
  obtain ⟨aspect, -, hbroken⟩ := List.exists_of_findSome?_eq_some hfault
  cases aspect with
  | title =>
      have hstated : Text.isBlankText t.title = false :=
        Bool.eq_false_iff.mpr (not_isBlankText_iff.mpr h.title)
      simp only [faultIn, titleFault?, hstated, Bool.false_eq_true, if_false] at hbroken
      split at hbroken <;> cases hbroken
      exact .title ‹_›
  | description =>
      have hstated : Text.isBlankText t.description = false :=
        Bool.eq_false_iff.mpr (not_isBlankText_iff.mpr h.description)
      simp only [faultIn, descriptionFault?, hstated, Bool.false_eq_true, if_false] at hbroken
      split at hbroken <;> cases hbroken
      exact .description ‹_›
  | bounty =>
      have hpositive : t.bounty.isZero = false := by
        simpa [Coin.isZero] using Nat.pos_iff_ne_zero.mp h.bounty
      simp only [faultIn, bountyFault?, hpositive, Bool.false_eq_true, if_false] at hbroken
      split at hbroken
      · cases hbroken
        exact .denom ‹_›
      · split at hbroken
        · cases hbroken
          exact .min ‹_›
        · split at hbroken <;> cases hbroken
          exact .max ‹_›
  | status => cases hbroken
  | creator =>
      have hnone := creatorFault?_eq_none.mpr h.creator
      cases hnone.symm.trans hbroken
  | times =>
      simp only [faultIn, timesFault?, Int64.not_le.mpr h.created, if_false] at hbroken
      split at hbroken <;> cases hbroken
      exact .early ‹_›
  | claimant =>
      have hnone := claimantFault?_eq_none.mpr h.claimant
      cases hnone.symm.trans hbroken
  | approver =>
      have hnone : approverFault? (some approver) = none :=
        approverFault?_eq_none.mpr fun who hwho => Option.some.inj hwho ▸ happrover
      cases hnone.symm.trans hbroken

namespace Store

variable {s : Store} {p : Params}

theorem Reachable.approvalRefusal (h : Reachable s) (hp : s.params = some p) {id : TaskId}
    {approver txHash : String} {now : Time} {refusal : Refusal}
    (hrefused : s.approve id approver txHash now = .error refusal) :
    ApprovalRefusal s p approver id now refusal := by
  -- the guards in their order: each refuses, or it holds and the next one is looked at
  simp only [approve, requireStatus, requireCreator, bind_eq_error, pure_ne_error,
    actor_eq_error, actor_eq_ok, task_eq_error, task_eq_ok, requireParams_eq_error,
    requireParams_eq_ok, ensure_eq_error, ensure_eq_ok, payee_eq_error, payee_eq_ok, requireValid,
    refuseIf_eq_error, and_false, exists_false, or_false] at hrefused
  rcases hrefused with ⟨fault, hfault, rfl⟩ | ⟨_, ⟨haddress, rfl⟩, hrefused⟩
  · exact .address hfault
  rcases hrefused with ⟨hmissing, rfl⟩ | ⟨t, found, hrefused⟩
  · exact .missing hmissing
  rcases hrefused with ⟨hstatus, rfl⟩ | ⟨-, hstatus, hrefused⟩
  · exact .status found hstatus
  rcases hrefused with ⟨hcreator, rfl⟩ | ⟨-, -, hrefused⟩
  · exact .creator found hcreator
  rcases hrefused with ⟨hnone, -⟩ | ⟨q, hq, hrefused⟩
  · cases hnone.symm.trans hp
  obtain rfl := Option.some.inj (hq.symm.trans hp)
  have hform := h.wellFormed found
  rcases hrefused with ⟨hlate, rfl⟩ | ⟨-, -, hrefused⟩
  · have hclaimant : t.claimant ≠ none := by
      intro hnone
      simp [Task.reviewExpired, hnone] at hlate
    exact .late found fun hwithin => hlate ((hform.within_iff hclaimant).mpr hwithin)
  rcases hrefused with ⟨hpaid, -⟩ | ⟨-, -, hrefused⟩
  · have hunpaid := h.sound.unpaid found hstatus
    simp [Table.contains, hunpaid] at hpaid
  rcases hrefused with ⟨hnone, rfl⟩ | ⟨who, hclaimant, hrefused⟩
  · exact .unclaimed found hnone
  rcases hrefused with hmismatch | ⟨-, -, fault, hfault, rfl⟩
  · rw [check_approved (u := ()) (Table.key_of_get? found) hclaimant] at hmismatch
    cases hmismatch
  · exact .task found (hform.approvalFault haddress hfault)

/-- An approval is granted exactly when it comes from the creator of a task
that waits for its review with a claimant, in time, and the task is within
the limits of the parameters. It can be refused for nothing else. -/
theorem approval_granted_iff (h : Reachable s) (hp : s.params = some p)
    (authority approver txHash : String) (id : TaskId) (now : Time) :
    ((∃ next r, s.apply authority approver (.approve id txHash) now = .ok (next, .approved r))
      ↔ Address.IsText approver
        ∧ ∃ t, s.tasks.get? id = some t ∧ t.status = .submitted ∧ t.creator = approver
          ∧ t.claimant ≠ none ∧ t.createdAt ≤ now
          ∧ Within t.updatedAt now p.submissionDeadline ∧ t.Fits p)
    ∧ ∀ refusal, s.apply authority approver (.approve id txHash) now = .error refusal →
      ApprovalRefusal s p approver id now refusal := by
  refine ⟨⟨?_, ?_⟩, ?_⟩
  · rintro ⟨next, r, happly⟩
    obtain ⟨e, haccepts, -, -⟩ := apply_eq_ok.mp happly
    cases haccepts with
    | @approve _ _ who t q address found status creator params inTime _ claimant valid =>
        obtain rfl := Option.some.inj (params.symm.trans hp)
        have hclaimant : t.claimant ≠ none := claimant ▸ Option.some_ne_none who
        obtain ⟨hform, hfits⟩ := Task.valid_iff_fits.mp valid
        have hwithin := ((h.wellFormed found).within_iff hclaimant).mp inTime
        exact ⟨address, t, found, status, creator, hclaimant, hform.updated, hwithin,
          { hfits with }⟩
  · rintro ⟨haddress, t, found, hstatus, hcreator, hclaimant, hlater, hwithin, hfits⟩
    obtain ⟨who, hwho⟩ := Option.ne_none_iff_exists'.mp hclaimant
    have hform := h.wellFormed found
    have hvalid : t.Valid p := Task.valid_iff_fits.mpr ⟨hform, hfits⟩
    have happroved : { t with
        status := .approved, approver := some approver, updatedAt := now }.Valid p :=
      hvalid.moved nofun hform.claimant (fun other hother => Option.some.inj hother ▸ haddress)
        hlater
    have haccepts : s.Accepts authority approver now (.approve id txHash) _ :=
      .approve haddress found hstatus hcreator hp
        ((hform.within_iff hclaimant).mpr hwithin)
        (h.sound.unpaid found hstatus) hwho happroved
    exact ⟨_, _, apply_eq_ok.mpr ⟨_, haccepts, rfl, rfl⟩⟩
  · intro refusal hrefused
    have happrove : s.approve id approver txHash now = .error refusal := by
      rw [apply, effect] at hrefused
      exact map_eq_error.mp hrefused
    exact h.approvalRefusal hp happrove

/-- The creator of the sample task can approve it at the last moment of its
deadline. The worker cannot. -/
theorem approval_granted_iff_sample :
    (∃ next r, (empty.afterAll Sample.untilReview).apply Sample.alice Sample.alice
        (.approve 0 "tx-1") 1209611 = .ok (next, .approved r))
    ∧ ApprovalRefusal (empty.afterAll Sample.untilReview) Params.default Sample.bob 0 12
        .notCreator := by
  have hp : (empty.afterAll Sample.untilReview).params = some Params.default := by
    rw [Sample.board_untilReview, Sample.waitingBoard]
  have hreach : Reachable (empty.afterAll Sample.untilReview) := Reachable.empty.afterAll _
  have hwithin : Within Sample.waiting.updatedAt 1209611 Params.default.submissionDeadline :=
    fun _ => by decide
  have hfits : Sample.waiting.Fits Params.default :=
    ⟨by decide, by decide, by decide, by decide, by decide⟩
  constructor
  · exact (approval_granted_iff hreach hp _ _ _ _ _).1.mpr
      ⟨Sample.isText_alice, Sample.waiting, Sample.task_untilReview, rfl, rfl, nofun, by decide,
        hwithin, hfits⟩
  · refine (approval_granted_iff hreach hp Sample.alice Sample.bob "tx-1" 0 12).2 _ ?_
    rw [Sample.board_untilReview]
    decide +kernel

end Store

end BountyBoard

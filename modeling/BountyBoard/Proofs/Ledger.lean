import BountyBoard.Proofs.History

/-!
# The rewards of a history

The rewards that a store holds in the end are the ones its answers have
reported on the way, one row for each (`rows_rewards_afterAll`): an approval
writes the reward it answers with, under an id without one, and nothing else
writes or removes a reward. So no task is paid twice, whatever happens to it
in between (`paid_once`).

Rewards and tasks agree at any time (`rewards_match_tasks`). A task with a
reward is gone, approved or closed. The reward of an approved task is its
receipt: nothing changes an approved task but closing it, so the two still
say what they said at the approval. Only a snapshot can bring approved tasks
without a reward.
-/

namespace BountyBoard

/-- The reward says what the approved task says. -/
structure Reward.IsReceiptOf (r : Reward) (t : Task) : Prop where
  claimant : t.claimant = some r.claimant
  amount : r.amount = t.bounty
  timestamp : r.timestamp = t.updatedAt
  approver : t.approver = some t.creator

namespace Store

/-! ## One event -/

/-- An event adds the reward that its answer reports, if it reports one. -/
theorem rows_rewards_next (s : Store) (event : Event) :
    (s.next event).rewards.rows.Perm
      (((s.answer? event).bind Response.reward?).toList ++ s.rewards.rows) := by
  cases event with
  | start g authority =>
      cases s.outcome (.start g authority) with
      | refused same =>
          rw [same]
          exact .refl _
      | started _ _ _ _ later =>
          rw [later]
          exact .refl _
      | accepted message => cases message
  | message authority sender m now =>
      cases heffect : s.effect authority sender m now with
      | error refusal =>
          rw [next_refused heffect, answer?_refused heffect]
          exact .refl _
      | ok e =>
          have haccepts := effect_eq_ok.mp heffect
          rw [next, after_eq haccepts, answer?_eq_some.mpr ⟨e, haccepts, rfl⟩, Option.bind_some]
          rcases haccepts.rewards_cases with ⟨hsame, hnone⟩ | ⟨r, hsome, hpays⟩
          · rw [hsame, hnone]
            exact .refl _
          · rw [hpays.rewards, hsome]
            exact Table.rows_insert_perm hpays.unpaid

theorem reward_stays_next {s : Store} {i : TaskId} {r : Reward} (h : s.rewards.get? i = some r)
    (event : Event) : (s.next event).rewards.get? i = some r := by
  cases s.outcome event with
  | refused same => rw [same, h]
  | started _ _ _ _ later =>
      rw [later]
      exact h
  | accepted _ accepts later => rw [later, accepts.reward_stays h]

/-! ## Histories -/

theorem rows_rewards_afterAll (s : Store) (events : List Event) :
    (s.afterAll events).rewards.rows.Perm
      ((s.answers events).filterMap Response.reward? ++ s.rewards.rows) := by
  induction events generalizing s with
  | nil => exact .refl _
  | cons event rest ih =>
      rw [filterMap_answers_cons]
      refine (ih (s.next event)).trans ?_
      refine ((rows_rewards_next s event).append_left _).trans ?_
      rw [← List.append_assoc]
      exact List.perm_append_comm.append_right _

theorem reward_stays_afterAll {s : Store} {i : TaskId} {r : Reward}
    (h : s.rewards.get? i = some r) (events : List Event) :
    (s.afterAll events).rewards.get? i = some r :=
  afterAll_induction (P := fun s => s.rewards.get? i = some r) h
    fun _ event _ hstays => reward_stays_next hstays event

/-- Nobody can approve a task that has a reward. -/
theorem answer?_approve_paid {s : Store} {id : TaskId} {r : Reward}
    (h : s.rewards.get? id = some r) (authority sender txHash : String) (now : Time) :
    s.answer? (.message authority sender (.approve id txHash) now) = none := by
  rw [Option.eq_none_iff_forall_ne_some]
  intro answer hanswer
  obtain ⟨e, haccepts, -⟩ := answer?_eq_some.mp hanswer
  obtain ⟨paid, -, rfl, hpays⟩ := haccepts.pays
  rw [hpays.unpaid] at h
  cases h

/-- An accepted approval leaves a reward behind. -/
theorem reward_of_answer?_approve {s : Store} {authority sender txHash : String} {id : TaskId}
    {now : Time} (h : s.answer? (.message authority sender (.approve id txHash) now) ≠ none) :
    ∃ r, (s.next (.message authority sender (.approve id txHash) now)).rewards.get? id
      = some r := by
  obtain ⟨e, haccepts⟩ := accepts_of_answer? h
  obtain ⟨r, -, rfl, hpays⟩ := haccepts.pays
  refine ⟨r, ?_⟩
  rw [next, after_eq haccepts, hpays.rewards, Table.get?_insert_self]

/-! ## Receipts -/

/-- Every approved task has its receipt. -/
def Receipted (s : Store) : Prop :=
  ∀ i t, s.tasks.get? i = some t → t.status = .approved →
    ∃ r, s.rewards.get? i = some r ∧ r.IsReceiptOf t

/-- A task that an accepted message has just approved has its receipt: the
reward was made out from it. -/
theorem Pays.isReceiptOf {s s' : Store} {sender : String} {now : Time} {r : Reward}
    (h : s.Pays s' sender now r) {t : Task} (ht : s'.tasks.get? r.taskId = some t) :
    r.IsReceiptOf t := by
  obtain ⟨u, -, hcreator, hclaimant, hbounty, hafter⟩ := h.task
  rw [ht] at hafter
  cases hafter
  exact
    { claimant := hclaimant
      amount := hbounty.symm
      timestamp := h.timestamp
      approver := congrArg some hcreator.symm }

theorem Receipted.accepted {s : Store} (h : s.Receipted) {authority sender : String} {m : Message}
    {now : Time} {e : Effect} (haccepts : s.Accepts authority sender now m e) :
    Receipted (s.commit e.writes) := by
  intro i t ht hs
  cases haccepts.rowStep i with
  | stays same =>
      rw [same] at ht
      obtain ⟨r, hr, hreceipt⟩ := h i t ht hs
      exact ⟨r, haccepts.reward_stays hr, hreceipt⟩
  | posted _ _ row =>
      rw [ht] at row
      cases row
      cases hs
  | @moved u found move =>
      rw [ht] at move
      -- no edge leads from `approved` to `approved`, so this is the approval itself
      obtain ⟨txHash, rfl⟩ := move.approval hs
      obtain ⟨r, -, hid, hpays⟩ := haccepts.pays
      have hi : r.taskId = i := hid.trans (Table.key_of_get? found)
      subst hi
      exact ⟨r, by rw [hpays.rewards, Table.get?_insert_self], hpays.isReceiptOf ht⟩

theorem receipted_afterAll {events : List Event}
    (h : ∀ g authority, .start g authority ∈ events → ∀ t ∈ g.tasks, t.status ≠ .approved) :
    Receipted (empty.afterAll events) := by
  refine sound_empty.afterAll_induction ?_ ?_
  · intro i t ht
    cases ht
  · intro s event hmem hsound hreceipted
    cases s.outcome event with
    | refused same =>
        rw [same]
        exact hreceipted
    | @started g authority start blank _ _ later =>
        -- the store was empty, so its tasks now are those of the snapshot
        rw [later, hsound.blank blank]
        intro i t ht hs
        exact absurd hs (h g authority (start ▸ hmem) t (Table.mem_of_get?_foldl_insert ht).1)
    | accepted _ accepts later =>
        rw [later]
        exact hreceipted.accepted accepts

/-! ## The laws -/

/-- A reward is paid once and never rewritten. The rewards of a history are
those that its approvals were answered with, and no two approvals of one
task are accepted, whatever comes between them. -/
theorem paid_once :
    (∀ (s : Store) (authority sender : String) (m : Message) (now : Time) (i : TaskId) (r : Reward),
      s.rewards.get? i = some r → (s.after authority sender m now).rewards.get? i = some r)
    ∧ (∀ (s : Store) (authority sender : String) (m : Message) (now : Time) (r : Reward),
      s.answer? (.message authority sender m now) = some (.approved r)
        → ∃ txHash, m = .approve r.taskId txHash)
    ∧ (∀ events : List Event, (empty.afterAll events).rewards.rows.Perm
        ((empty.answers events).filterMap Response.reward?))
    ∧ (∀ (before between : List Event) (authority sender txHash authority' sender' txHash' : String)
        (now now' : Time) (id : TaskId),
      (empty.afterAll before).answer? (.message authority sender (.approve id txHash) now) ≠ none
        → (empty.afterAll
            (before ++ .message authority sender (.approve id txHash) now :: between)).answer?
              (.message authority' sender' (.approve id txHash') now') = none) := by
  refine ⟨?_, ?_, ?_, ?_⟩
  · intro s authority sender m now i r hr
    exact reward_stays_next hr (.message authority sender m now)
  · intro s authority sender m now r hanswer
    obtain ⟨e, haccepts, hresponse⟩ := answer?_eq_some.mp hanswer
    cases haccepts <;> cases hresponse
    exact ⟨_, rfl⟩
  · intro events
    simpa [empty, Table.empty] using rows_rewards_afterAll empty events
  · intro before between authority sender txHash authority' sender' txHash' now now' id hfirst
    obtain ⟨r, hr⟩ := reward_of_answer?_approve hfirst
    rw [afterAll_append]
    exact answer?_approve_paid (reward_stays_afterAll hr between) ..

/-- The task of the sample history is paid once. Its reward outlasts the
task, and a second approval finds no task to approve. -/
theorem paid_once_sample :
    (empty.afterAll Sample.untilReview).answer? Sample.approval ≠ none
    ∧ (empty.afterAll
        (Sample.untilReview ++ Sample.approval :: Sample.afterApproval)).answer?
          (Sample.sent Sample.alice (.approve 0 "tx-2") 16) = none
    ∧ ((empty.afterAll (Sample.untilReview ++ [Sample.approval])).next
        Sample.closing).rewards.get? 0 = some ⟨0, Sample.bob, Sample.bounty, 12, "tx-1"⟩ := by
  have hfirst : (empty.afterAll Sample.untilReview).answer? Sample.approval ≠ none := by
    decide +kernel
  have hreward : (empty.afterAll (Sample.untilReview ++ [Sample.approval])).rewards.get? 0
      = some ⟨0, Sample.bob, Sample.bounty, 12, "tx-1"⟩ := by decide +kernel
  exact ⟨hfirst, paid_once.2.2.2 _ _ _ _ _ _ _ _ _ _ _ hfirst,
    paid_once.1 _ _ _ _ _ _ _ hreward⟩

/-- Rewards and tasks agree at the end of any history. A reward has an id
that was given out, and its task is gone, approved or closed. An approved
task has its receipt, unless it came with a snapshot. -/
theorem rewards_match_tasks (events : List Event) :
    (∀ r ∈ (empty.afterAll events).rewards.rows,
      r.taskId < (empty.afterAll events).nextId
        ∧ ((empty.afterAll events).tasks.get? r.taskId = none
          ∨ ∃ t, (empty.afterAll events).tasks.get? r.taskId = some t
            ∧ (t.status = .approved ∨ t.status = .closed)))
    ∧ ((∀ g authority, .start g authority ∈ events → ∀ t ∈ g.tasks, t.status ≠ .approved) →
      ∀ t ∈ (empty.afterAll events).tasks.rows, t.status = .approved →
        ∃ r, (empty.afterAll events).rewards.get? t.id = some r ∧ r.IsReceiptOf t) := by
  have hsound := sound_afterAll events
  refine ⟨?_, ?_⟩
  · intro r hmem
    have hr := Table.get?_of_mem hmem
    refine ⟨hsound.reward_lt hr, ?_⟩
    cases ht : (empty.afterAll events).tasks.get? r.taskId with
    | none => exact .inl rfl
    | some t => exact .inr ⟨t, rfl, hsound.settled hr ht⟩
  · intro hstart t hmem hs
    exact receipted_afterAll hstart t.id t (Table.get?_of_mem hmem) hs

/-- In the sample history, right after the approval. -/
theorem rewards_match_tasks_sample :
    ∃ t ∈ (empty.afterAll (Sample.untilReview ++ [Sample.approval])).tasks.rows,
      t.status = .approved
      ∧ ∃ r, (empty.afterAll (Sample.untilReview ++ [Sample.approval])).rewards.get? t.id = some r
        ∧ r.IsReceiptOf t := by
  have hstart : ∀ g authority, .start g authority ∈ Sample.untilReview ++ [Sample.approval] →
      ∀ t ∈ g.tasks, t.status ≠ .approved := by
    intro g authority hmem
    simp [Sample.untilReview, Sample.approval, Sample.sent] at hmem
    rw [hmem.1]
    simp [Snapshot.default]
  obtain ⟨t, hmem, hs⟩ : ∃ t ∈
      (empty.afterAll (Sample.untilReview ++ [Sample.approval])).tasks.rows,
        t.status = .approved := by decide +kernel
  exact ⟨t, hmem, hs, (rewards_match_tasks _).2 hstart t hmem hs⟩

end Store

end BountyBoard

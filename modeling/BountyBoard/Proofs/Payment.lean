import BountyBoard.Proofs.Move

/-!
# What one message pays

An accepted approval pays one reward, the one that it answers with
(`Accepts.pays`). The reward goes under the id of the approved task, where
none was before, and states what the task says at that moment: its claimant,
its bounty, the time of the approval. No other message touches the rewards
(`Accepts.rewards_eq`), so a reward that is there stays as it is
(`Accepts.reward_stays`).
-/

namespace BountyBoard

/-- The reward that an answer reports. -/
def Response.reward? : Response → Option Reward
  | approved r => some r
  | _ => none

namespace Store

/-- The reward `r` is paid on the way from the store `s` to `s'`. -/
structure Pays (s s' : Store) (sender : String) (now : Time) (r : Reward) : Prop where
  unpaid : s.rewards.get? r.taskId = none
  rewards : s'.rewards = s.rewards.insert r
  timestamp : r.timestamp = now
  /-- The task that the reward is for, before and after. -/
  task : ∃ t, s.tasks.get? r.taskId = some t ∧ t.creator = sender
    ∧ t.claimant = some r.claimant ∧ t.bounty = r.amount
    ∧ s'.tasks.get? r.taskId
      = some { t with status := .approved, approver := some sender, updatedAt := now }

namespace Accepts

variable {s : Store} {authority sender : String} {now : Time} {m : Message} {e : Effect}

theorem pays {id : TaskId} {txHash : String}
    (h : s.Accepts authority sender now (.approve id txHash) e) :
    ∃ r, e.response = .approved r ∧ r.taskId = id ∧ s.Pays (s.commit e.writes) sender now r := by
  cases h with
  | @approve id txHash who t p _ found _ creator _ _ unpaid claimant =>
      refine ⟨⟨id, who, t.bounty, now, txHash⟩, rfl, rfl, ?_⟩
      refine
        { unpaid := unpaid
          rewards := rfl
          timestamp := rfl
          task := ⟨t, found, creator, claimant, rfl, ?_⟩ }
      have hid : id = t.id := (Table.key_of_get? found).symm
      show (s.tasks.insert _).get? id = _
      rw [Table.get?_insert, if_pos hid]

theorem rewards_eq (h : s.Accepts authority sender now m e)
    (hm : ∀ id txHash, m ≠ .approve id txHash) :
    (s.commit e.writes).rewards = s.rewards ∧ e.response.reward? = none := by
  cases h with
  | approve => exact absurd rfl (hm _ _)
  | _ => exact ⟨rfl, rfl⟩

/-- Either nothing is paid, or the reward of the answer is. -/
theorem rewards_cases (h : s.Accepts authority sender now m e) :
    (s.commit e.writes).rewards = s.rewards ∧ e.response.reward? = none
      ∨ ∃ r, e.response.reward? = some r ∧ s.Pays (s.commit e.writes) sender now r := by
  cases m with
  | approve id txHash =>
      obtain ⟨r, hanswer, -, hpays⟩ := h.pays
      exact .inr ⟨r, by rw [hanswer]; rfl, hpays⟩
  | _ => exact .inl (h.rewards_eq fun _ _ hm => by cases hm)

/-- A reward was there before, or its task has just been approved. -/
theorem reward_before (h : s.Accepts authority sender now m e) {i : TaskId} {r : Reward}
    (hr : (s.commit e.writes).rewards.get? i = some r) :
    s.rewards.get? i = some r
      ∨ ∃ t, (s.commit e.writes).tasks.get? i = some t ∧ t.status = .approved := by
  rcases h.rewards_cases with ⟨hsame, -⟩ | ⟨paid, -, hpays⟩
  · rw [hsame] at hr
    exact .inl hr
  · rw [hpays.rewards, Table.get?_insert] at hr
    split at hr
    · rename_i hi
      obtain ⟨t, -, -, -, -, ht⟩ := hpays.task
      rw [← hi] at ht
      exact .inr ⟨_, ht, rfl⟩
    · exact .inl hr

theorem reward_stays (h : s.Accepts authority sender now m e) {i : TaskId} {r : Reward}
    (hr : s.rewards.get? i = some r) : (s.commit e.writes).rewards.get? i = some r := by
  rcases h.rewards_cases with ⟨hsame, -⟩ | ⟨paid, -, hpays⟩
  · rw [hsame, hr]
  · have hne : i ≠ paid.taskId := by
      intro heq
      have hunpaid := hpays.unpaid
      rw [← heq, hr] at hunpaid
      cases hunpaid
    rw [hpays.rewards, Table.get?_insert_of_ne _ hne, hr]

end Accepts

end Store

end BountyBoard

import BountyBoard.Proofs.Acceptance
import BountyBoard.Proofs.Table

/-!
# What a message does to one task

`Task.Move` is an accepted message seen from the task it is addressed to:
what was asked of the task and what becomes of it. The parameters, the
deadlines and the rewards play no part here. What holds of every move is
proved from its six rules: it follows an edge of the table of statuses
(`Move.edge`), and a revision alone can follow one that leads back
(`Move.number_lt`); it keeps id, creator and time of creation (`Move.kept`),
only an approval leads to `approved` (`Move.approval`), and only a deletion
takes a task away (`Move.deletion`).

An accepted message leaves the row of an id as it is, posts a new task under
the next id, or moves the task of the row (`Accepts.rowStep`).
-/

namespace BountyBoard

open Store

/-! ## Moves of a task -/

/-- The task that a message is addressed to. A new task is addressed by nobody. -/
def Message.addressee? : Message → Option TaskId
  | .create .. | .setParams _ => none
  | .update id _ | .delete id | .claim id | .submit id _ | .approve id _ | .reject id _ => some id

/-- What an accepted message makes of the task `t` it is addressed to. The
outcome is `none` when the task is gone. -/
inductive Task.Move (sender : String) (now : Time) (t : Task) : Message → Option Task → Prop
  | update {r : Revision}
      (creator : t.creator = sender)
      (gate : r.status ≠ .approved)
      (edge : t.status.canBecome r.status = true) :
      t.Move sender now (.update t.id r) (some (revise t r now))
  | delete
      (creator : t.creator = sender)
      (idle : t.status = .opened ∨ t.status = .closed) :
      t.Move sender now (.delete t.id) none
  | claim
      (status : t.status = .opened)
      (other : t.creator ≠ sender)
      (unclaimed : t.claimant = none) :
      t.Move sender now (.claim t.id)
        (some { t with status := .claimed, claimant := some sender, updatedAt := now })
  | submit {e : Evidence}
      (status : t.status = .claimed)
      (claimant : t.claimant = some sender) :
      t.Move sender now (.submit t.id e)
        (some { t with status := .submitted, finding := some (.submitted e), updatedAt := now })
  | approve {txHash : String}
      (status : t.status = .submitted)
      (creator : t.creator = sender) :
      t.Move sender now (.approve t.id txHash)
        (some { t with status := .approved, approver := some sender, updatedAt := now })
  | reject {reason : String}
      (status : t.status = .submitted)
      (creator : t.creator = sender) :
      t.Move sender now (.reject t.id reason)
        (some { t with
          status := .rejected, finding := some (.rejected reason), updatedAt := now })

namespace Task.Move

variable {sender : String} {now : Time} {t t' : Task} {m : Message}

theorem addressee? {new : Option Task} (h : t.Move sender now m new) :
    m.addressee? = some t.id := by
  cases h <;> rfl

/-- Every move of a task that stays follows an edge of the table. -/
theorem edge (h : t.Move sender now m (some t')) : t.status.canBecome t'.status = true := by
  cases h with
  | update _ _ edge => exact edge
  | claim status => rw [status]; rfl
  | submit status => rw [status]; rfl
  | approve status => rw [status]; rfl
  | reject status => rw [status]; rfl

theorem kept (h : t.Move sender now m (some t')) :
    t'.id = t.id ∧ t'.creator = t.creator ∧ t'.createdAt = t.createdAt := by
  cases h <;> exact ⟨rfl, rfl, rfl⟩

/-- A task that stays is given the time of the message. -/
theorem time (h : t.Move sender now m (some t')) : t'.updatedAt = now := by
  cases h <;> rfl

/-- Every move but a revision leads further in the life of the task. -/
theorem number_lt (h : t.Move sender now m (some t')) (hother : ∀ r, m ≠ .update t.id r) :
    t.status.number < t'.status.number := by
  cases h with
  | update => exact absurd rfl (hother _)
  | claim status | submit status | approve status | reject status => simp [status, Status.number]

/-- Only an approval leads to `approved`: a revision to it is refused. -/
theorem approval (h : t.Move sender now m (some t')) (hs : t'.status = .approved) :
    ∃ txHash, m = .approve t.id txHash := by
  cases h with
  | update _ gate => exact absurd hs gate
  | approve => exact ⟨_, rfl⟩
  | _ => cases hs

/-- Only a deletion takes a task away. -/
theorem deletion (h : t.Move sender now m none) :
    m = .delete t.id ∧ t.creator = sender ∧ (t.status = .opened ∨ t.status = .closed) := by
  cases h with
  | delete creator idle => exact ⟨rfl, creator, idle⟩

end Task.Move

/-! ## Rows of a store -/

namespace Store

/-- What an accepted message can do to the row of an id, when it leads from
the store `s` to `s'`. -/
inductive RowStep (s s' : Store) (sender : String) (now : Time) (m : Message) (i : TaskId) : Prop
  | stays (same : s'.tasks.get? i = s.tasks.get? i)
  | posted {title description : String} {bounty : Coin}
      (create : m = .create title description bounty)
      (next : i = s.nextId)
      (row : s'.tasks.get? i = some (Task.posted i sender title description bounty now))
  | moved {t : Task}
      (found : s.tasks.get? i = some t)
      (move : t.Move sender now m (s'.tasks.get? i))

/-- Replacing a task by what a move makes of it moves its row and no other. -/
theorem rowStep_insert {s s' : Store} {sender : String} {now : Time} {m : Message} {id : TaskId}
    {t t' : Task} (found : s.tasks.get? id = some t) (move : t.Move sender now m (some t'))
    (h : s'.tasks = s.tasks.insert t') (i : TaskId) : s.RowStep s' sender now m i := by
  have hid : t'.id = id := move.kept.1.trans (Table.key_of_get? found)
  by_cases hi : i = t'.id
  · refine .moved (t := t) (by rw [hi, hid, found]) ?_
    rw [h, hi, Table.get?_insert_self]
    exact move
  · exact .stays (by rw [h, Table.get?_insert_of_ne _ hi])

namespace Accepts

variable {s : Store} {authority sender : String} {now : Time} {m : Message} {e : Effect}

/-- An accepted message is a step of every row. -/
theorem rowStep (h : s.Accepts authority sender now m e) (i : TaskId) :
    s.RowStep (s.commit e.writes) sender now m i := by
  cases h with
  | create =>
      by_cases hi : i = s.nextId
      · subst hi
        exact .posted rfl rfl (Table.get?_insert_self s.tasks _)
      · exact .stays (Table.get?_insert_of_ne s.tasks hi)
  | update _ found creator _ gate edge =>
      obtain rfl := Table.key_of_get? found
      exact rowStep_insert found (.update creator gate edge) rfl i
  | @delete id t _ found creator idle =>
      by_cases hi : i = id
      · refine .moved (t := t) (by rw [hi, found]) ?_
        show t.Move sender now (.delete id) ((s.tasks.erase id).get? i)
        rw [Table.get?_erase, if_pos hi, ← Table.key_of_get? found]
        exact .delete creator idle
      · refine .stays ?_
        show (s.tasks.erase id).get? i = s.tasks.get? i
        rw [Table.get?_erase, if_neg hi]
  | claim _ found status other unclaimed =>
      obtain rfl := Table.key_of_get? found
      exact rowStep_insert found (.claim status other unclaimed) rfl i
  | submit _ found status claimant =>
      obtain rfl := Table.key_of_get? found
      exact rowStep_insert found (.submit status claimant) rfl i
  | approve _ found status creator =>
      obtain rfl := Table.key_of_get? found
      exact rowStep_insert found (.approve status creator) rfl i
  | reject _ found status creator =>
      obtain rfl := Table.key_of_get? found
      exact rowStep_insert found (.reject status creator) rfl i
  | setParams => exact .stays rfl

/-- Posting a task takes one id, and never the last of the range. -/
theorem nextId_create {title description : String} {bounty : Coin}
    (h : s.Accepts authority sender now (.create title description bounty) e) :
    s.nextId.toNat + 1 < UInt64.size ∧ (s.commit e.writes).nextId = s.nextId + 1 := by
  cases h with
  | create _ _ _ room => exact ⟨room, rfl⟩

/-- No other message takes an id. -/
theorem nextId_eq (h : s.Accepts authority sender now m e)
    (hm : ∀ title description bounty, m ≠ .create title description bounty) :
    (s.commit e.writes).nextId = s.nextId := by
  cases h with
  | create => exact absurd rfl (hm _ _ _)
  | _ => rfl

theorem lt_nextId_create {title description : String} {bounty : Coin}
    (h : s.Accepts authority sender now (.create title description bounty) e) :
    s.nextId < (s.commit e.writes).nextId := by
  obtain ⟨hroom, heq⟩ := h.nextId_create
  rw [heq, UInt64.lt_iff_toNat_lt, toNat_add_one hroom]
  exact Nat.lt_succ_self _

/-- The next id never falls back. -/
theorem nextId_le (h : s.Accepts authority sender now m e) :
    s.nextId ≤ (s.commit e.writes).nextId := by
  cases m with
  | create => exact UInt64.le_of_lt h.lt_nextId_create
  | _ => exact UInt64.le_of_eq (h.nextId_eq fun _ _ _ hm => by cases hm).symm

end Accepts

end Store

end BountyBoard

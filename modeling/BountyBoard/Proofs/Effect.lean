import BountyBoard.Proofs.History

/-!
# What a message changes

A refused message changes nothing. An accepted one changes exactly what its
answer says (`Accepts.brings`): a posted task and the next id, one task, or
one task together with its reward, or the parameters. `Brings` has one case
for each kind of answer, and each of its cases ends with the store as a
whole, so that what the case does not name is as it was before.

The answer says what was written although it is made up apart from the
writes: the status in the answer is the status of the stored task, and the
reward in the answer is the stored reward.
-/

namespace BountyBoard.Store

/-- What the answer to an accepted message says about the stores before and after. -/
inductive Brings (s s' : Store) (sender : String) (now : Time) : Message → Response → Prop
  | created {title description : String} {bounty : Coin}
      (counter : s'.nextId.toNat = s.nextId.toNat + 1)
      (row : s.tasks.Sets s.nextId
        (some (Task.posted s.nextId sender title description bounty now)) s'.tasks)
      (rest : s' = { s with tasks := s'.tasks, nextId := s'.nextId }) :
      s.Brings s' sender now (.create title description bounty) (.created s.nextId)
  | updated {m : Message} {t t' : Task}
      (found : s.tasks.get? t.id = some t)
      (move : t.Move sender now m (some t'))
      (time : t'.updatedAt = now)
      (row : s.tasks.Sets t.id (some t') s'.tasks)
      (rest : s' = { s with tasks := s'.tasks }) :
      s.Brings s' sender now m (.updated t.id t'.status)
  | deleted {t : Task}
      (found : s.tasks.get? t.id = some t)
      (move : t.Move sender now (.delete t.id) none)
      (row : s.tasks.Sets t.id none s'.tasks)
      (rest : s' = { s with tasks := s'.tasks }) :
      s.Brings s' sender now (.delete t.id) (.deleted t.id)
  | approved {t : Task} {who txHash : String}
      (found : s.tasks.get? t.id = some t)
      (creator : t.creator = sender)
      (claimant : t.claimant = some who)
      (row : s.tasks.Sets t.id
        (some { t with status := .approved, approver := some sender, updatedAt := now }) s'.tasks)
      (unpaid : s.rewards.get? t.id = none)
      (reward : s.rewards.Sets t.id (some ⟨t.id, who, t.bounty, now, txHash⟩) s'.rewards)
      (rest : s' = { s with tasks := s'.tasks, rewards := s'.rewards }) :
      s.Brings s' sender now (.approve t.id txHash)
        (.approved ⟨t.id, who, t.bounty, now, txHash⟩)
  | paramsUpdated {p : Params}
      (rest : s' = { s with params := some p }) :
      s.Brings s' sender now (.setParams p) .paramsUpdated

variable {s : Store} {authority sender : String} {now : Time} {m : Message} {e : Effect}

/-- Replacing a task by what a move makes of it changes that task only. -/
theorem brings_updated {t t' : Task} (found : s.tasks.get? t.id = some t)
    (move : t.Move sender now m (some t')) (time : t'.updatedAt = now) :
    s.Brings (s.commit { tasks := [t'] }) sender now m (.updated t.id t'.status) :=
  .updated found move time (Table.sets_insert s.tasks move.kept.1) rfl

theorem Accepts.brings (h : s.Accepts authority sender now m e) :
    s.Brings (s.commit e.writes) sender now m e.response := by
  cases h with
  | create _ _ _ room =>
      exact .created (toNat_add_one room) (Table.sets_insert s.tasks rfl) rfl
  | update _ found creator _ gate edge =>
      obtain rfl := Table.key_of_get? found
      exact brings_updated found (.update creator gate edge) rfl
  | delete _ found creator idle =>
      obtain rfl := Table.key_of_get? found
      exact .deleted found (.delete creator idle) (Table.sets_erase s.tasks _) rfl
  | claim _ found status other unclaimed =>
      obtain rfl := Table.key_of_get? found
      exact brings_updated found (.claim status other unclaimed) rfl
  | submit _ found status claimant =>
      obtain rfl := Table.key_of_get? found
      exact brings_updated found (.submit status claimant) rfl
  | approve _ found _ creator _ _ unpaid claimant =>
      obtain rfl := Table.key_of_get? found
      exact .approved found creator claimant (Table.sets_insert s.tasks rfl) unpaid
        (Table.sets_insert s.rewards rfl) rfl
  | reject _ found status creator =>
      obtain rfl := Table.key_of_get? found
      exact brings_updated found (.reject status creator) rfl
  | setParams => exact .paramsUpdated rfl

/-- In any store, a refused message leaves everything as it is, and an
accepted one brings about what its answer says and nothing else. -/
theorem exact_effect (s : Store) (authority sender : String) (m : Message) (now : Time) :
    (∀ refusal, s.apply authority sender m now = .error refusal →
      s.after authority sender m now = s)
    ∧ ∀ s' answer, s.apply authority sender m now = .ok (s', answer) →
      s.after authority sender m now = s' ∧ s.Brings s' sender now m answer := by
  refine ⟨?_, ?_⟩
  · intro refusal h
    rw [after, h]
  · intro s' answer h
    obtain ⟨e, haccepts, rfl, rfl⟩ := apply_eq_ok.mp h
    exact ⟨after_eq haccepts, haccepts.brings⟩

/-- The approval of the sample task brings its reward, and a second approval
right after it leaves no trace. -/
theorem exact_effect_sample :
    (empty.afterAll Sample.untilReview).Brings
      ((empty.afterAll Sample.untilReview).next Sample.approval) Sample.alice 12
      (.approve 0 "tx-1") (.approved ⟨0, Sample.bob, Sample.bounty, 12, "tx-1"⟩)
    ∧ (empty.afterAll (Sample.untilReview ++ [Sample.approval])).after Sample.alice Sample.alice
        (.approve 0 "tx-2") 13
      = empty.afterAll (Sample.untilReview ++ [Sample.approval]) := by
  constructor
  · have hanswer : (empty.afterAll Sample.untilReview).answer? Sample.approval
        = some (.approved ⟨0, Sample.bob, Sample.bounty, 12, "tx-1"⟩) := by decide +kernel
    obtain ⟨e, haccepts, hresponse⟩ := answer?_eq_some.mp hanswer
    have happly := apply_eq_ok.mpr ⟨e, haccepts, (after_eq haccepts).symm, hresponse⟩
    exact ((exact_effect _ _ _ _ _).2 _ _ happly).2
  · have hrefused : (empty.afterAll (Sample.untilReview ++ [Sample.approval])).apply Sample.alice
        Sample.alice (.approve 0 "tx-2") 13 = .error (.wrongStatus .submitted .approved) := by
      decide +kernel
    exact (exact_effect _ _ _ _ _).1 _ hrefused

end BountyBoard.Store

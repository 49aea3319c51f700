import BountyBoard.Lifecycle
import BountyBoard.Proofs.Address

/-!
# Which messages are accepted

`Store.Accepts` is the rule book of the board: one rule for each message,
with everything that has to hold for the message to be accepted, what is
then written and what is answered. It is exactly what `Store.effect`
computes (`effect_eq_ok`), so that no proof about accepted messages opens
the chains of guards again: it goes through the rules by cases.

The order of the guards decides only which of several refusals is given, so
the rules do not show it. Which refusal a guard gives is said beside the
condition that it checks (`ensure_eq_error` and the lemmas after it).
-/

namespace BountyBoard

/-! ## Chains of guards -/

section

variable {ε α β : Type}

theorem bind_eq_ok {x : Except ε α} {f : α → Except ε β} {b : β} :
    (x >>= f) = .ok b ↔ ∃ a, x = .ok a ∧ f a = .ok b := by
  cases x with
  | error refusal =>
      constructor
      · intro h
        cases h
      · rintro ⟨_, h, _⟩
        cases h
  | ok a =>
      constructor
      · exact fun h => ⟨a, rfl, h⟩
      · rintro ⟨_, h, hf⟩
        cases h
        exact hf

theorem pure_eq_ok {a b : α} : (pure a : Except ε α) = .ok b ↔ a = b := by
  constructor
  · intro h
    cases h
    rfl
  · intro h
    rw [h]
    rfl

theorem mapError_eq_ok {δ : Type} {x : Except ε α} {f : ε → δ} {a : α} :
    x.mapError f = .ok a ↔ x = .ok a := by
  cases x <;> simp [Except.mapError]

/-- A chain is broken off by the first guard that refuses. -/
theorem bind_eq_error {x : Except ε α} {f : α → Except ε β} {refusal : ε} :
    (x >>= f) = .error refusal ↔ x = .error refusal ∨ ∃ a, x = .ok a ∧ f a = .error refusal := by
  cases x <;> simp [bind, Except.bind]

theorem pure_ne_error {a : α} {refusal : ε} : (pure a : Except ε α) ≠ .error refusal :=
  fun h => by cases h

theorem mapError_eq_error {δ : Type} {x : Except ε α} {f : ε → δ} {given : δ} :
    x.mapError f = .error given ↔ ∃ refusal, x = .error refusal ∧ f refusal = given := by
  cases x <;> simp [Except.mapError]

theorem map_eq_ok {x : Except ε α} {f : α → β} {b : β} :
    x.map f = .ok b ↔ ∃ a, x = .ok a ∧ f a = b := by
  cases x <;> simp [Except.map]

theorem map_eq_error {x : Except ε α} {f : α → β} {refusal : ε} :
    x.map f = .error refusal ↔ x = .error refusal := by
  cases x <;> simp [Except.map]

end

theorem ensure_eq_error {condition : Prop} [Decidable condition] {refusal given : Refusal} :
    ensure condition refusal = .error given ↔ ¬condition ∧ given = refusal := by
  by_cases h : condition <;> simp [ensure, h, eq_comm]

theorem refuseIf_eq_error {α : Type} {fault : Option α} {refusal : α → Refusal}
    {given : Refusal} :
    refuseIf fault refusal = .error given ↔ ∃ a, fault = some a ∧ given = refusal a := by
  cases fault <;> simp [refuseIf, eq_comm]

namespace Store

theorem actor_eq_error {who : String} {refusal : Refusal} :
    actor who = .error refusal
      ↔ ∃ fault, Address.ofText who = .error fault ∧ refusal = .badAddress fault := by
  rw [actor, Address.canonical]
  cases Address.ofText who <;> simp [Except.map, Except.mapError, eq_comm]

theorem task_eq_error {s : Store} {id : TaskId} {refusal : Refusal} :
    s.task id = .error refusal ↔ s.tasks.get? id = none ∧ refusal = .noTask id := by
  rw [task]
  cases s.tasks.get? id <;> simp [eq_comm]

theorem requireParams_eq_error {s : Store} {refusal : Refusal} :
    s.requireParams = .error refusal ↔ s.params = none ∧ refusal = .noParams := by
  rw [requireParams]
  cases s.params <;> simp [eq_comm]

theorem idAfter_eq_error {id : TaskId} {refusal : Refusal} :
    idAfter id = .error refusal ↔ ¬id.toNat + 1 < UInt64.size ∧ refusal = .idsExhausted := by
  by_cases h : id.toNat + 1 < UInt64.size <;> simp [idAfter, h, eq_comm]

theorem payee_eq_error {t : Task} {refusal : Refusal} :
    payee t = .error refusal ↔ t.claimant = none ∧ refusal = .badReward .noClaimant := by
  rw [payee]
  cases t.claimant <;> simp [eq_comm]

theorem actor_eq_ok {who r : String} : actor who = .ok r ↔ Address.IsText who ∧ r = who := by
  rw [actor, mapError_eq_ok, Address.canonical_eq_ok]

theorem task_eq_ok {s : Store} {id : TaskId} {t : Task} :
    s.task id = .ok t ↔ s.tasks.get? id = some t := by
  rw [task]
  cases s.tasks.get? id <;> simp

theorem requireParams_eq_ok {s : Store} {p : Params} :
    s.requireParams = .ok p ↔ s.params = some p := by
  rw [requireParams]
  cases s.params <;> simp

theorem requireValid_eq_ok {p : Params} {t : Task} {u : Unit} :
    requireValid p t = .ok u ↔ t.Valid p :=
  refuseIf_eq_ok

theorem idAfter_eq_ok {id next : TaskId} :
    idAfter id = .ok next ↔ id.toNat + 1 < UInt64.size ∧ next = id + 1 := by
  rw [idAfter]
  split
  · rename_i h
    simp [h, eq_comm]
  · rename_i h
    simp [h]

theorem toNat_add_one {id : TaskId} (room : id.toNat + 1 < UInt64.size) :
    (id + 1).toNat = id.toNat + 1 :=
  (UInt64.toNat_add id 1).trans (Nat.mod_eq_of_lt room)

theorem payee_eq_ok {t : Task} {who : String} : payee t = .ok who ↔ t.claimant = some who := by
  rw [payee]
  cases t.claimant <;> simp

/-- The reward that an approval makes out is always the one that the task
calls for. -/
theorem check_approved {t : Task} {id : TaskId} {who txHash : String} {now : Time}
    {approver : Option String} {u : Unit} (hid : t.id = id) (hwho : t.claimant = some who) :
    Reward.check { t with status := .approved, approver := approver, updatedAt := now }
      { taskId := id, claimant := who, amount := t.bounty, timestamp := now, txHash := txHash }
      = .ok u := by
  simp [Reward.check, ensure, Task.isClaimedBy, hid, hwho]
  rfl

/-! ## The rules -/

/-- The messages that a store accepts, each with what it writes and
answers. `authority` is who may replace the parameters. -/
inductive Accepts (s : Store) (authority sender : String) (now : Time) :
    Message → Effect → Prop
  | create {title description : String} {bounty : Coin} {p : Params}
      (address : Address.IsText sender)
      (params : s.params = some p)
      (valid : (Task.posted s.nextId sender title description bounty now).Valid p)
      (room : s.nextId.toNat + 1 < UInt64.size) :
      Accepts s authority sender now (.create title description bounty)
        { writes :=
            { tasks := [Task.posted s.nextId sender title description bounty now]
              nextId := some (s.nextId + 1) }
          response := .created s.nextId }
  | update {id : TaskId} {r : Revision} {t : Task} {p : Params}
      (address : Address.IsText sender)
      (found : s.tasks.get? id = some t)
      (creator : t.creator = sender)
      (params : s.params = some p)
      (gate : r.status ≠ .approved)
      (edge : t.status.canBecome r.status = true)
      (valid : (revise t r now).Valid p) :
      Accepts s authority sender now (.update id r)
        { writes := { tasks := [revise t r now] }, response := .updated id r.status }
  | delete {id : TaskId} {t : Task}
      (address : Address.IsText sender)
      (found : s.tasks.get? id = some t)
      (creator : t.creator = sender)
      (idle : t.status = .opened ∨ t.status = .closed) :
      Accepts s authority sender now (.delete id)
        { writes := { removedTasks := [id] }, response := .deleted id }
  | claim {id : TaskId} {t : Task} {p : Params}
      (address : Address.IsText sender)
      (found : s.tasks.get? id = some t)
      (status : t.status = .opened)
      (other : t.creator ≠ sender)
      (unclaimed : t.claimant = none)
      (params : s.params = some p)
      (inTime : t.expired p now = false)
      (valid : { t with status := .claimed, claimant := some sender, updatedAt := now }.Valid p) :
      Accepts s authority sender now (.claim id)
        { writes :=
            { tasks := [{ t with status := .claimed, claimant := some sender, updatedAt := now }] }
          response := .updated id .claimed }
  | submit {id : TaskId} {e : Evidence} {t : Task} {p : Params}
      (address : Address.IsText sender)
      (found : s.tasks.get? id = some t)
      (status : t.status = .claimed)
      (claimant : t.claimant = some sender)
      (params : s.params = some p)
      (evidence : e.fault? p = none)
      (inTime : t.claimExpired p now = false)
      (valid : { t with
        status := .submitted, finding := some (.submitted e), updatedAt := now }.Valid p) :
      Accepts s authority sender now (.submit id e)
        { writes :=
            { tasks := [{ t with
                status := .submitted, finding := some (.submitted e), updatedAt := now }] }
          response := .updated id .submitted }
  | approve {id : TaskId} {txHash who : String} {t : Task} {p : Params}
      (address : Address.IsText sender)
      (found : s.tasks.get? id = some t)
      (status : t.status = .submitted)
      (creator : t.creator = sender)
      (params : s.params = some p)
      (inTime : t.reviewExpired p now = false)
      (unpaid : s.rewards.get? id = none)
      (claimant : t.claimant = some who)
      (valid : { t with status := .approved, approver := some sender, updatedAt := now }.Valid p) :
      Accepts s authority sender now (.approve id txHash)
        { writes :=
            { tasks := [{ t with
                status := .approved, approver := some sender, updatedAt := now }]
              rewards := [⟨id, who, t.bounty, now, txHash⟩] }
          response := .approved ⟨id, who, t.bounty, now, txHash⟩ }
  | reject {id : TaskId} {reason : String} {t : Task} {p : Params}
      (address : Address.IsText sender)
      (found : s.tasks.get? id = some t)
      (status : t.status = .submitted)
      (creator : t.creator = sender)
      (stated : Text.isBlankText reason = false)
      (params : s.params = some p)
      (inTime : t.reviewExpired p now = false)
      (valid : { t with
        status := .rejected, finding := some (.rejected reason), updatedAt := now }.Valid p) :
      Accepts s authority sender now (.reject id reason)
        { writes :=
            { tasks := [{ t with
                status := .rejected, finding := some (.rejected reason), updatedAt := now }] }
          response := .updated id .rejected }
  | setParams {p : Params}
      (address : Address.IsText sender)
      (governor : sender = authority)
      (sound : p.fault? = none) :
      Accepts s authority sender now (.setParams p)
        { writes := { params := some p }, response := .paramsUpdated }

/-! ## The rules are what the guards check -/

section

variable {s : Store} {authority sender : String} {now : Time} {e : Effect}

theorem create_eq_ok {title description : String} {bounty : Coin} :
    s.create sender title description bounty now = .ok e
      ↔ s.Accepts authority sender now (.create title description bounty) e := by
  simp only [create, bind_eq_ok, pure_eq_ok, actor_eq_ok, requireParams_eq_ok, requireValid_eq_ok,
    idAfter_eq_ok]
  constructor
  · rintro ⟨_, ⟨haddress, rfl⟩, p, hparams, _, hvalid, _, ⟨hroom, rfl⟩, rfl⟩
    exact .create haddress hparams hvalid hroom
  · intro h
    cases h with
    | create haddress hparams hvalid hroom =>
        exact ⟨_, ⟨haddress, rfl⟩, _, hparams, (), hvalid, _, ⟨hroom, rfl⟩, rfl⟩

theorem update_eq_ok {id : TaskId} {r : Revision} :
    s.update id sender r now = .ok e ↔ s.Accepts authority sender now (.update id r) e := by
  simp only [update, requireCreator, bind_eq_ok, pure_eq_ok, actor_eq_ok, task_eq_ok,
    requireParams_eq_ok, requireValid_eq_ok, ensure_eq_ok]
  constructor
  · rintro ⟨_, ⟨haddress, rfl⟩, t, hfound, _, hcreator, p, hparams, _, hgate, _, hedge, _, hvalid,
      rfl⟩
    exact .update haddress hfound hcreator hparams hgate hedge hvalid
  · intro h
    cases h with
    | update haddress hfound hcreator hparams hgate hedge hvalid =>
        exact ⟨_, ⟨haddress, rfl⟩, _, hfound, (), hcreator, _, hparams, (), hgate, (), hedge, (),
          hvalid, rfl⟩

theorem delete_eq_ok {id : TaskId} :
    s.delete id sender = .ok e ↔ s.Accepts authority sender now (.delete id) e := by
  simp only [delete, requireCreator, bind_eq_ok, pure_eq_ok, actor_eq_ok, task_eq_ok, ensure_eq_ok]
  constructor
  · rintro ⟨_, ⟨haddress, rfl⟩, t, hfound, _, hcreator, _, hidle, rfl⟩
    exact .delete haddress hfound hcreator hidle
  · intro h
    cases h with
    | delete haddress hfound hcreator hidle =>
        exact ⟨_, ⟨haddress, rfl⟩, _, hfound, (), hcreator, (), hidle, rfl⟩

theorem claim_eq_ok {id : TaskId} :
    s.claim id sender now = .ok e ↔ s.Accepts authority sender now (.claim id) e := by
  simp only [claim, requireStatus, bind_eq_ok, pure_eq_ok, actor_eq_ok, task_eq_ok,
    requireParams_eq_ok, requireValid_eq_ok, ensure_eq_ok]
  constructor
  · rintro ⟨_, ⟨haddress, rfl⟩, t, hfound, _, hstatus, _, hother, _, hfree, p, hparams, _, htime, _,
      hvalid, rfl⟩
    exact .claim haddress hfound hstatus hother hfree hparams htime hvalid
  · intro h
    cases h with
    | claim haddress hfound hstatus hother hfree hparams htime hvalid =>
        exact ⟨_, ⟨haddress, rfl⟩, _, hfound, (), hstatus, (), hother, (), hfree, _, hparams, (),
          htime, (), hvalid, rfl⟩

theorem submit_eq_ok {id : TaskId} {evidence : Evidence} :
    s.submit id sender evidence now = .ok e
      ↔ s.Accepts authority sender now (.submit id evidence) e := by
  simp only [submit, requireStatus, bind_eq_ok, pure_eq_ok, actor_eq_ok, task_eq_ok,
    requireParams_eq_ok, requireValid_eq_ok, refuseIf_eq_ok, ensure_eq_ok, Task.isClaimedBy,
    beq_iff_eq]
  constructor
  · rintro ⟨_, ⟨haddress, rfl⟩, t, hfound, _, hstatus, _, hclaimant, p, hparams, _, hevidence, _,
      htime, _, hvalid, rfl⟩
    exact .submit haddress hfound hstatus hclaimant hparams hevidence htime hvalid
  · intro h
    cases h with
    | submit haddress hfound hstatus hclaimant hparams hevidence htime hvalid =>
        exact ⟨_, ⟨haddress, rfl⟩, _, hfound, (), hstatus, (), hclaimant, _, hparams, (), hevidence,
          (), htime, (), hvalid, rfl⟩

theorem approve_eq_ok {id : TaskId} {txHash : String} :
    s.approve id sender txHash now = .ok e
      ↔ s.Accepts authority sender now (.approve id txHash) e := by
  simp only [approve, requireStatus, requireCreator, bind_eq_ok, pure_eq_ok, actor_eq_ok,
    task_eq_ok, requireParams_eq_ok, requireValid_eq_ok, payee_eq_ok, ensure_eq_ok,
    Table.contains, Option.isSome_eq_false_iff, Option.isNone_iff_eq_none]
  constructor
  · rintro ⟨_, ⟨haddress, rfl⟩, t, hfound, _, hstatus, _, hcreator, p, hparams, _, htime, _,
      hunpaid, who, hclaimant, _, -, _, hvalid, rfl⟩
    exact .approve haddress hfound hstatus hcreator hparams htime hunpaid hclaimant hvalid
  · intro h
    cases h with
    | @approve id txHash who t p haddress hfound hstatus hcreator hparams htime hunpaid hclaimant
        hvalid =>
        have hid : t.id = id := Table.key_of_get? hfound
        exact ⟨_, ⟨haddress, rfl⟩, _, hfound, (), hstatus, (), hcreator, _, hparams, (), htime, (),
          hunpaid, _, hclaimant, (), check_approved hid hclaimant, (), hvalid, rfl⟩

theorem reject_eq_ok {id : TaskId} {reason : String} :
    s.reject id sender reason now = .ok e
      ↔ s.Accepts authority sender now (.reject id reason) e := by
  simp only [reject, requireStatus, requireCreator, bind_eq_ok, pure_eq_ok, actor_eq_ok,
    task_eq_ok, requireParams_eq_ok, requireValid_eq_ok, ensure_eq_ok]
  constructor
  · rintro ⟨_, ⟨haddress, rfl⟩, t, hfound, _, hstatus, _, hcreator, _, hstated, p, hparams, _,
      htime, _, hvalid, rfl⟩
    exact .reject haddress hfound hstatus hcreator hstated hparams htime hvalid
  · intro h
    cases h with
    | reject haddress hfound hstatus hcreator hstated hparams htime hvalid =>
        exact ⟨_, ⟨haddress, rfl⟩, _, hfound, (), hstatus, (), hcreator, (), hstated, _, hparams,
          (), htime, (), hvalid, rfl⟩

theorem setParams_eq_ok {p : Params} :
    setParams authority sender p = .ok e ↔ s.Accepts authority sender now (.setParams p) e := by
  simp only [setParams, bind_eq_ok, pure_eq_ok, actor_eq_ok, refuseIf_eq_ok, ensure_eq_ok]
  constructor
  · rintro ⟨_, ⟨haddress, rfl⟩, _, hgovernor, _, hsound, rfl⟩
    exact .setParams haddress hgovernor hsound
  · intro h
    cases h with
    | setParams haddress hgovernor hsound =>
        exact ⟨_, ⟨haddress, rfl⟩, (), hgovernor, (), hsound, rfl⟩

/-- A message comes to an effect exactly when a rule says so. -/
theorem effect_eq_ok {m : Message} :
    s.effect authority sender m now = .ok e ↔ s.Accepts authority sender now m e := by
  cases m with
  | create title description bounty => exact create_eq_ok
  | update id r => exact update_eq_ok
  | delete id => exact delete_eq_ok
  | claim id => exact claim_eq_ok
  | submit id evidence => exact submit_eq_ok
  | approve id txHash => exact approve_eq_ok
  | reject id reason => exact reject_eq_ok
  | setParams p => exact setParams_eq_ok

/-- A message is accepted by a rule, and the writes of the rule are made. -/
theorem apply_eq_ok {m : Message} {next : Store} {answer : Response} :
    s.apply authority sender m now = .ok (next, answer)
      ↔ ∃ e, s.Accepts authority sender now m e ∧ s.commit e.writes = next
        ∧ e.response = answer := by
  simp only [← effect_eq_ok]
  rw [apply]
  cases s.effect authority sender m now <;> simp [Except.map]

end

end Store

end BountyBoard

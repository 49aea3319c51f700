import BountyBoard.Proofs.History

/-!
# Messages about different tasks

Two messages that are about different ids do not notice each other: the one
comes to the same whether the other was sent before it or not, and the order
of the two leaves no trace in the store (`messages_commute`). What a message
comes to depends on the parameters and on the rows of its own id
(`effect_congr`), and what it writes are rows of its own id (`Accepts.within`).
The next id is the one thing apart: a new task reads it and moves it on,
but no other message does either. A new task is about the id that it takes,
so two messages that both post a task are always about the same one, and
these do depend on their order.

That writes to different ids commute is a fact about tables. An operation
works on one row when it leaves all others alone and looks at no other
(`Table.WorksAt`), and two of them for different rows can be swapped
(`Table.WorksAt.comm`).
-/

namespace BountyBoard

/-! ## Operations on one row -/

namespace Table

variable {α β : Type} {key : α → TaskId}

/-- The operation changes the row of one id, and by nothing but that row. -/
structure WorksAt (i : TaskId) (f : Table key → Table key) : Prop where
  others : ∀ t k, k ≠ i → (f t).get? k = t.get? k
  own : ∀ t u, t.get? i = u.get? i → (f t).get? i = (f u).get? i

theorem worksAt_insert {i : TaskId} {a : α} (h : key a = i) :
    WorksAt i fun t : Table key => t.insert a where
  others t k hk := get?_insert_of_ne t (h ▸ hk)
  own t u _ := by
    subst h
    rw [get?_insert_self, get?_insert_self]

theorem worksAt_erase {i removed : TaskId} (h : removed = i) :
    WorksAt i fun t : Table key => t.erase removed where
  others t k hk := by rw [get?_erase, if_neg (h ▸ hk)]
  own t u _ := by
    subst h
    rw [get?_erase, get?_erase, if_pos rfl, if_pos rfl]

theorem WorksAt.comp {i : TaskId} {f g : Table key → Table key} (hg : WorksAt i g)
    (hf : WorksAt i f) : WorksAt i fun t => g (f t) where
  others t k hk := by rw [hg.others _ k hk, hf.others t k hk]
  own t u h := hg.own _ _ (hf.own t u h)

/-- Many operations on the row of one id, one after the other, are one. -/
theorem worksAt_foldl {i : TaskId} {op : Table key → β → Table key} {bs : List β}
    (h : ∀ b ∈ bs, WorksAt i fun t => op t b) : WorksAt i fun t => bs.foldl op t := by
  induction bs with
  | nil => exact ⟨fun _ _ _ => rfl, fun _ _ heq => heq⟩
  | cons b rest ih =>
      exact (ih fun c hc => h c (List.mem_cons_of_mem b hc)).comp (h b List.mem_cons_self)

/-- Operations on different rows can be swapped. -/
theorem WorksAt.comm {i j : TaskId} {f g : Table key → Table key} (hf : WorksAt i f)
    (hg : WorksAt j g) (hne : i ≠ j) (t : Table key) : g (f t) = f (g t) := by
  refine ext_get? fun k => ?_
  by_cases hk : k = i
  · subst hk
    rw [hg.others (f t) k hne]
    exact hf.own t (g t) (hg.others t k hne).symm
  · rw [hf.others (g t) k hk]
    by_cases hkj : k = j
    · subst hkj
      exact hg.own (f t) t (hf.others t k hk)
    · rw [hg.others _ k hkj, hg.others _ k hkj, hf.others t k hk]

end Table

/-! ## Batches for one task -/

/-- Everything in the batch, apart from the next id, is about one task. -/
structure Batch.Within (b : Batch) (i : TaskId) : Prop where
  tasks : ∀ t ∈ b.tasks, t.id = i
  removed : ∀ k ∈ b.removedTasks, k = i
  rewards : ∀ r ∈ b.rewards, r.taskId = i
  params : b.params = none
  authority : b.authority = none

namespace Batch

variable {b : Batch} {i : TaskId}

theorem within_put {t : Task} {rs : List Reward} {next : Option TaskId} (ht : t.id = i)
    (hrs : ∀ r ∈ rs, r.taskId = i) : Within { tasks := [t], rewards := rs, nextId := next } i where
  tasks _ hu := List.mem_singleton.mp hu ▸ ht
  removed _ hk := absurd hk List.not_mem_nil
  rewards := hrs
  params := rfl
  authority := rfl

theorem within_removal {removed : List TaskId} (h : ∀ k ∈ removed, k = i) :
    Within { removedTasks := removed } i where
  tasks _ ht := absurd ht List.not_mem_nil
  removed := h
  rewards _ hr := absurd hr List.not_mem_nil
  params := rfl
  authority := rfl

theorem Within.worksAt_tasks (h : b.Within i) :
    Table.WorksAt i fun t : Table Task.id =>
      b.removedTasks.foldl Table.erase (b.tasks.foldl Table.insert t) :=
  (Table.worksAt_foldl fun k hk => Table.worksAt_erase (h.removed k hk)).comp
    (Table.worksAt_foldl fun t ht => Table.worksAt_insert (h.tasks t ht))

theorem Within.worksAt_rewards (h : b.Within i) :
    Table.WorksAt i fun t : Table Reward.taskId => b.rewards.foldl Table.insert t :=
  Table.worksAt_foldl fun r hr => Table.worksAt_insert (h.rewards r hr)

end Batch

namespace Store

/-- Batches for different tasks can be committed in either order, if at most
one of them sets the next id. -/
theorem commit_comm {a b : Batch} {i j : TaskId} (ha : a.Within i) (hb : b.Within j)
    (hne : i ≠ j) (hnext : a.nextId = none ∨ b.nextId = none) (s : Store) :
    (s.commit a).commit b = (s.commit b).commit a := by
  have htasks := ha.worksAt_tasks.comm hb.worksAt_tasks hne s.tasks
  have hrewards := ha.worksAt_rewards.comm hb.worksAt_rewards hne s.rewards
  have hids : b.nextId.getD (a.nextId.getD s.nextId) = a.nextId.getD (b.nextId.getD s.nextId) := by
    rcases hnext with h | h <;> rw [h] <;> rfl
  unfold commit
  rw [ha.params, hb.params, ha.authority, hb.authority, hids]
  congr 1

/-! ## What a message is about -/

/-- The id that a message is about when it comes to the store: the one it is
addressed to, or the one that its task would get. -/
def subject? (s : Store) : Message → Option TaskId
  | .create .. => some s.nextId
  | .update id _ | .delete id | .claim id | .submit id _ | .approve id _ | .reject id _ => some id
  | .setParams _ => none

section

variable {s : Store} {authority sender : String} {now : Time} {m : Message} {e : Effect}
  {i : TaskId}

/-- A message writes rows of its own id. -/
theorem Accepts.within (h : s.Accepts authority sender now m e) (hm : s.subject? m = some i) :
    e.writes.Within i := by
  have put : ∀ {t t' : Task} {rs : List Reward}, s.tasks.get? i = some t → t'.id = t.id →
      (∀ r ∈ rs, r.taskId = i) → Batch.Within { tasks := [t'], rewards := rs } i :=
    fun found hid => Batch.within_put (hid.trans (Table.key_of_get? found))
  cases h with
  | create =>
      cases hm
      exact Batch.within_put rfl (by simp)
  | update _ found =>
      cases hm
      exact put found rfl (by simp)
  | delete =>
      cases hm
      exact Batch.within_removal (by simp)
  | claim _ found =>
      cases hm
      exact put found rfl (by simp)
  | submit _ found =>
      cases hm
      exact put found rfl (by simp)
  | approve _ found =>
      cases hm
      exact put found rfl (by simp)
  | reject _ found =>
      cases hm
      exact put found rfl (by simp)
  | setParams => cases hm

/-- No message but a new task sets the next id. -/
theorem Accepts.sets_nextId (h : s.Accepts authority sender now m e)
    (hset : e.writes.nextId ≠ none) : s.subject? m = some s.nextId := by
  cases h with
  | create => rfl
  | _ => exact absurd rfl hset

/-! ## What a message depends on -/

/-- The store `u` shows a message all that it sees in the store `s`. -/
structure ShowsAs (u s : Store) (m : Message) : Prop where
  params : u.params = s.params
  nextId : s.subject? m = some s.nextId → u.nextId = s.nextId
  task : ∀ i, s.subject? m = some i → u.tasks.get? i = s.tasks.get? i
  reward : ∀ i, s.subject? m = some i → u.rewards.get? i = s.rewards.get? i

theorem effect_congr {u : Store} (h : u.ShowsAs s m) :
    u.effect authority sender m now = s.effect authority sender m now := by
  have hparams : u.requireParams = s.requireParams := by
    unfold requireParams
    rw [h.params]
  have htask : ∀ i, s.subject? m = some i → u.task i = s.task i := fun i hi => by
    unfold task
    rw [h.task i hi]
  cases m with
  | create => simp only [effect, create, hparams, h.nextId rfl]
  | update id r => simp only [effect, update, hparams, htask id rfl]
  | delete id => simp only [effect, delete, htask id rfl]
  | claim id => simp only [effect, claim, hparams, htask id rfl]
  | submit id evidence => simp only [effect, submit, hparams, htask id rfl]
  | approve id txHash =>
      -- An approval is the one message that looks at a reward.
      have hpaid : u.rewards.contains id = s.rewards.contains id := by
        unfold Table.contains
        rw [h.reward id rfl]
      simp only [effect, approve, hparams, htask id rfl]
      rw [hpaid]
  | reject id reason => simp only [effect, reject, hparams, htask id rfl]
  | setParams p => rfl

/-- A batch for another task, if it leaves the next id to the messages that
read it, changes nothing that a message sees. -/
theorem showsAs_commit {b : Batch} {j : TaskId} (hb : b.Within j) (hm : s.subject? m = some i)
    (hne : i ≠ j) (hnext : b.nextId ≠ none → j = s.nextId) : (s.commit b).ShowsAs s m where
  params := by
    unfold commit
    rw [hb.params]
    rfl
  nextId h := by
    have hi : i = s.nextId := Option.some.inj (hm.symm.trans h)
    have hkept : b.nextId = none := by
      by_contra hset
      exact hne (hi.trans (hnext hset).symm)
    unfold commit
    rw [hkept]
    rfl
  task k hk := by
    obtain rfl : i = k := Option.some.inj (hm.symm.trans hk)
    exact hb.worksAt_tasks.others s.tasks i hne
  reward k hk := by
    obtain rfl : i = k := Option.some.inj (hm.symm.trans hk)
    exact hb.worksAt_rewards.others s.rewards i hne

/-! ## Two messages -/

/-- What a message writes. A refused message writes nothing. -/
def written (s : Store) (authority sender : String) (m : Message) (now : Time) : Batch :=
  match s.effect authority sender m now with
  | .ok e => e.writes
  | .error _ => {}

/-- What the sender of a message hears: the answer to it or why it is refused. -/
def reply (s : Store) (authority sender : String) (m : Message) (now : Time) :
    Except Refusal Response :=
  (s.apply authority sender m now).map (·.2)

theorem after_eq_commit (s : Store) (authority sender : String) (m : Message) (now : Time) :
    s.after authority sender m now = s.commit (s.written authority sender m now) := by
  unfold after apply written
  cases s.effect authority sender m now with
  | error refusal => exact (commit_empty s).symm
  | ok e => rfl

theorem within_written (hm : s.subject? m = some i) :
    (s.written authority sender m now).Within i := by
  unfold written
  cases heffect : s.effect authority sender m now with
  | error refusal => exact Batch.within_removal (by simp)
  | ok e => exact (effect_eq_ok.mp heffect).within hm

theorem written_nextId (hm : s.subject? m = some i)
    (hset : (s.written authority sender m now).nextId ≠ none) : i = s.nextId := by
  unfold written at hset
  cases heffect : s.effect authority sender m now with
  | error refusal =>
      rw [heffect] at hset
      exact absurd rfl hset
  | ok e =>
      rw [heffect] at hset
      exact Option.some.inj (hm.symm.trans ((effect_eq_ok.mp heffect).sets_nextId hset))

theorem written_congr {u : Store} (h : u.ShowsAs s m) :
    u.written authority sender m now = s.written authority sender m now := by
  unfold written
  rw [effect_congr h]

theorem reply_congr {u : Store} (h : u.ShowsAs s m) :
    u.reply authority sender m now = s.reply authority sender m now := by
  have heffect : u.effect authority sender m now = s.effect authority sender m now :=
    effect_congr h
  unfold reply apply
  rw [heffect]
  cases s.effect authority sender m now <;> rfl

/-- A message that sees what it would have seen before writes what it would have written. -/
theorem after_after {authority' sender' : String} {m' : Message} {now' : Time}
    (h : (s.after authority sender m now).ShowsAs s m') :
    (s.after authority sender m now).after authority' sender' m' now'
      = (s.commit (s.written authority sender m now)).commit
          (s.written authority' sender' m' now') := by
  rw [after_eq_commit (s.after authority sender m now), written_congr h, after_eq_commit s]

end

/-- Two messages about different ids come to the same in either order: the
store in the end is the same, and each sender hears the same. -/
theorem messages_commute (s : Store) {m m' : Message} {i j : TaskId} (hm : s.subject? m = some i)
    (hm' : s.subject? m' = some j) (hne : i ≠ j) (authority sender : String) (now : Time)
    (authority' sender' : String) (now' : Time) :
    (s.after authority sender m now).after authority' sender' m' now'
        = (s.after authority' sender' m' now').after authority sender m now
      ∧ (s.after authority' sender' m' now').reply authority sender m now
        = s.reply authority sender m now
      ∧ (s.after authority sender m now).reply authority' sender' m' now'
        = s.reply authority' sender' m' now' := by
  have hfirst : (s.after authority sender m now).ShowsAs s m' := by
    rw [after_eq_commit]
    exact showsAs_commit (within_written hm) hm' hne.symm (written_nextId hm)
  have hsecond : (s.after authority' sender' m' now').ShowsAs s m := by
    rw [after_eq_commit]
    exact showsAs_commit (within_written hm') hm hne (written_nextId hm')
  -- Only a new task sets the next id, and two of them would be about the same id.
  have hnext : (s.written authority sender m now).nextId = none
      ∨ (s.written authority' sender' m' now').nextId = none := by
    by_contra hboth
    rw [not_or] at hboth
    exact hne ((written_nextId hm hboth.1).trans (written_nextId hm' hboth.2).symm)
  refine ⟨?_, reply_congr hsecond, reply_congr hfirst⟩
  rw [after_after hfirst, after_after hsecond]
  exact commit_comm (within_written hm) (within_written hm') hne hnext s

/-- The sample task is approved while another task is posted. Bob's second
submission is refused whether or not the new task is there. -/
theorem messages_commute_sample :
    ((empty.afterAll Sample.untilReview).after Sample.alice Sample.alice
        (.approve 0 "tx-1") 12).after Sample.alice Sample.bob
          (.create "Paint the pump" "In green." Sample.bounty) 13
      = ((empty.afterAll Sample.untilReview).after Sample.alice Sample.bob
        (.create "Paint the pump" "In green." Sample.bounty) 13).after Sample.alice Sample.alice
          (.approve 0 "tx-1") 12
    ∧ ((empty.afterAll Sample.untilReview).after Sample.alice Sample.bob
        (.create "Paint the pump" "In green." Sample.bounty) 13).reply Sample.alice Sample.bob
          (.submit 0 Sample.evidence) 14
      = .error (.wrongStatus .claimed .submitted) := by
  have hcreate : (empty.afterAll Sample.untilReview).subject?
      (.create "Paint the pump" "In green." Sample.bounty) = some 1 := by decide +kernel
  have hsubmit : (empty.afterAll Sample.untilReview).reply Sample.alice Sample.bob
      (.submit 0 Sample.evidence) 14 = .error (.wrongStatus .claimed .submitted) := by
    decide +kernel
  refine ⟨(messages_commute _ rfl hcreate (by decide) ..).1, ?_⟩
  rw [(messages_commute _ rfl hcreate (by decide) ..).2.1, hsubmit]

end Store

end BountyBoard

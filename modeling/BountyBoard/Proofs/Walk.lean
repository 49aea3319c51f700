import BountyBoard.Proofs.Ledger

/-!
# The way of every task

Each event of a history is looked at from one id, by the task that stands
under it before and after (`Walks`). A task that stays follows an edge of
the table or is untouched, and only an approval approves it; it arrives with
a snapshot or is posted under the next id, and it leaves by a deletion. A
task that has left never comes back (`Gone`), because ids below the next one
are not given out again.
-/

namespace BountyBoard.Store

/-! ## One event -/

/-- How the task `t` can come to stand under the id `i`. -/
inductive Arrives (s : Store) (event : Event) (i : TaskId) (t : Task) : Prop
  | imported {g : Snapshot} {authority : String}
      (start : event = .start g authority)
      (accepted : s.initialise g authority = .ok (s.next event))
      (listed : t ∈ g.tasks)
  | posted {authority sender title description : String} {bounty : Coin} {now : Time}
      (create : event = .message authority sender (.create title description bounty) now)
      (next : i = s.nextId)
      (status : t.status = .opened)
      (claimant : t.claimant = none)
      (finding : t.finding = none)
      (approver : t.approver = none)

/-- What an event can do to the task with the id `i`. -/
structure Walks (s : Store) (event : Event) (i : TaskId) : Prop where
  edge : ∀ t t', s.tasks.get? i = some t → (s.next event).tasks.get? i = some t' →
    t' = t ∨ t.status.canBecome t'.status = true
      ∧ t'.id = t.id ∧ t'.creator = t.creator ∧ t'.createdAt = t.createdAt
  approval : ∀ t t', s.tasks.get? i = some t → (s.next event).tasks.get? i = some t' →
    t.status ≠ .approved → t'.status = .approved →
      ∃ authority sender txHash now r, event = .message authority sender (.approve i txHash) now
        ∧ s.answer? event = some (.approved r)
  arrival : ∀ t', s.tasks.get? i = none → (s.next event).tasks.get? i = some t' →
    s.Arrives event i t'
  departure : ∀ t, s.tasks.get? i = some t → (s.next event).tasks.get? i = none →
    ∃ authority now, event = .message authority t.creator (.delete i) now
      ∧ (t.status = .opened ∨ t.status = .closed)

/-- An event that changes nothing takes a task nowhere. -/
theorem walks_of_eq {s : Store} {event : Event} {i : TaskId}
    (h : (s.next event).tasks.get? i = s.tasks.get? i) : s.Walks event i where
  edge t t' ht ht' := by
    rw [h, ht] at ht'
    cases ht'
    exact .inl rfl
  approval t t' ht ht' hs hs' := by
    rw [h, ht] at ht'
    cases ht'
    exact absurd hs' hs
  arrival t' hnone ht' := by
    rw [h, hnone] at ht'
    cases ht'
  departure t ht hnone := by
    rw [h, ht] at hnone
    cases hnone

/-- Where no task was, one can only arrive. -/
theorem walks_of_none {s : Store} {event : Event} {i : TaskId} (h : s.tasks.get? i = none)
    (arrival : ∀ t', (s.next event).tasks.get? i = some t' → s.Arrives event i t') :
    s.Walks event i where
  edge t _ ht := by
    rw [h] at ht
    cases ht
  approval t _ ht := by
    rw [h] at ht
    cases ht
  arrival t' _ := arrival t'
  departure t ht := by
    rw [h] at ht
    cases ht

theorem walks_of_start {s : Store} (hs : s.Sound) (hblank : s.params = none) {g : Snapshot}
    {authority : String}
    (hinit : s.initialise g authority = .ok (s.next (.start g authority))) (i : TaskId) :
    s.Walks (.start g authority) i := by
  refine walks_of_none (hs.tasks_blank hblank i) fun t' ht' => .imported rfl hinit ?_
  obtain ⟨-, -, -, hnext⟩ := initialise_eq_ok.mp hinit
  rw [← hnext, hs.blank hblank] at ht'
  exact (Table.mem_of_get?_foldl_insert ht').1

theorem walks_of_move {s : Store} {authority sender : String} {m : Message} {now : Time}
    {e : Effect} (haccepts : s.Accepts authority sender now m e) {t : Task}
    (found : s.tasks.get? t.id = some t)
    (move : t.Move sender now m ((s.commit e.writes).tasks.get? t.id)) :
    s.Walks (.message authority sender m now) t.id := by
  have hnext : s.next (.message authority sender m now) = s.commit e.writes := after_eq haccepts
  rw [← hnext] at move
  refine ⟨?_, ?_, ?_, ?_⟩
  · intro u t' hu ht'
    rw [found] at hu
    cases hu
    rw [ht'] at move
    exact .inr ⟨move.edge, move.kept⟩
  · intro _ t' _ ht' _ hs'
    rw [ht'] at move
    obtain ⟨txHash, rfl⟩ := move.approval hs'
    obtain ⟨r, hanswer, -, -⟩ := haccepts.pays
    exact ⟨_, _, _, _, r, rfl, answer?_eq_some.mpr ⟨e, haccepts, hanswer⟩⟩
  · intro t' hnone
    rw [found] at hnone
    cases hnone
  · intro u hu hnone
    rw [found] at hu
    cases hu
    rw [hnone] at move
    obtain ⟨rfl, rfl, hidle⟩ := move.deletion
    exact ⟨_, _, rfl, hidle⟩

theorem walks_of_accepts {s : Store} (hs : s.Sound) {authority sender : String} {m : Message}
    {now : Time} {e : Effect} (haccepts : s.Accepts authority sender now m e) (i : TaskId) :
    s.Walks (.message authority sender m now) i := by
  have hnext : s.next (.message authority sender m now) = s.commit e.writes := after_eq haccepts
  cases haccepts.rowStep i with
  | stays same => exact walks_of_eq (by rw [hnext, same])
  | posted create next row =>
      subst create
      refine walks_of_none (by rw [next, hs.tasks_nextId]) fun t' ht' => ?_
      rw [hnext, row] at ht'
      cases ht'
      exact .posted rfl next rfl rfl rfl rfl
  | moved found move =>
      obtain rfl := Table.key_of_get? found
      exact walks_of_move haccepts found move

theorem Sound.walks {s : Store} (h : s.Sound) (event : Event) (i : TaskId) : s.Walks event i := by
  cases s.outcome event with
  | refused same => exact walks_of_eq (by rw [same])
  | started start blank address sound later =>
      subst start
      exact walks_of_start h blank (initialise_eq_ok.mpr ⟨blank, address, sound, later.symm⟩) i
  | accepted message accepts =>
      subst message
      exact walks_of_accepts h accepts i

/-! ## Histories -/

/-- No task has the id, and the id will not be given out. -/
structure Gone (s : Store) (i : TaskId) : Prop where
  absent : s.tasks.get? i = none
  used : i < s.nextId

theorem Gone.next {s : Store} {i : TaskId} (h : s.Gone i) (hs : s.Sound) (event : Event) :
    (s.next event).Gone i := by
  refine ⟨?_, UInt64.lt_of_lt_of_le h.used (hs.nextId_le_next event)⟩
  cases s.outcome event with
  | refused same => rw [same, h.absent]
  | started _ blank => exact absurd h.used (hs.not_lt_nextId blank i)
  | accepted _ accepts later =>
      rw [later]
      cases accepts.rowStep i with
      | stays same => rw [same, h.absent]
      | posted _ next => exact absurd (next ▸ h.used) (UInt64.lt_irrefl _)
      | moved found =>
          rw [h.absent] at found
          cases found

theorem Gone.afterAll {s : Store} {i : TaskId} (h : s.Gone i) (hs : s.Sound)
    (events : List Event) : (s.afterAll events).Gone i :=
  hs.afterAll_induction (P := fun u => u.Gone i) h fun _ event _ hu hgone => hgone.next hu event

/-- Every event of every history takes every task along the table, a task
that was there and has left stays away, and no task is ever `undefined`. -/
theorem lifecycle_walk :
    (∀ (before : List Event) (event : Event) (i : TaskId),
      (empty.afterAll before).Walks event i)
    ∧ (∀ (before between later : List Event) (i : TaskId),
      (empty.afterAll before).tasks.get? i ≠ none
        → (empty.afterAll (before ++ between)).tasks.get? i = none
        → (empty.afterAll (before ++ between ++ later)).tasks.get? i = none)
    ∧ ∀ (events : List Event) (i : TaskId) (t : Task),
      (empty.afterAll events).tasks.get? i = some t → t.status ≠ .undefined := by
  refine ⟨?_, ?_, ?_⟩
  · intro before event i
    exact (sound_afterAll before).walks event i
  · intro before between later i hpresent habsent
    obtain ⟨t, ht⟩ := Option.ne_none_iff_exists'.mp hpresent
    have hused : i < (empty.afterAll (before ++ between)).nextId := by
      rw [afterAll_append]
      exact UInt64.lt_of_lt_of_le ((sound_afterAll before).task_lt ht)
        ((sound_afterAll before).nextId_le_afterAll between)
    have hgone : (empty.afterAll (before ++ between)).Gone i := ⟨habsent, hused⟩
    rw [afterAll_append]
    exact (hgone.afterAll (sound_afterAll _) later).absent
  · intro events i t ht
    exact (sound_afterAll events).defined ht

/-- The task of the sample history on its way to `approved`, and after its
deletion. -/
theorem lifecycle_walk_sample :
    (empty.afterAll Sample.untilReview).tasks.get? 0 = some Sample.waiting
    ∧ (∃ t', ((empty.afterAll Sample.untilReview).next Sample.approval).tasks.get? 0 = some t'
      ∧ (t' = Sample.waiting ∨ Sample.waiting.status.canBecome t'.status = true
        ∧ t'.id = 0 ∧ t'.creator = Sample.alice ∧ t'.createdAt = 5))
    ∧ (empty.afterAll
        (Sample.untilReview ++ Sample.approval :: Sample.afterApproval
          ++ [Sample.sent Sample.bob (.claim 0) 16])).tasks.get? 0 = none := by
  have hafter : ((empty.afterAll Sample.untilReview).next Sample.approval).tasks.get? 0
      = some { Sample.waiting with
          status := .approved, approver := some Sample.alice, updatedAt := 12 } := by
    decide +kernel
  have hgone : (empty.afterAll
      (Sample.untilReview ++ Sample.approval :: Sample.afterApproval)).tasks.get? 0 = none := by
    decide +kernel
  refine ⟨Sample.task_untilReview, ⟨_, hafter, ?_⟩, ?_⟩
  · exact (lifecycle_walk.1 Sample.untilReview Sample.approval 0).edge _ _
      Sample.task_untilReview hafter
  · refine lifecycle_walk.2.1 Sample.untilReview _ _ 0 ?_ hgone
    rw [Sample.task_untilReview]
    exact Option.some_ne_none _

end BountyBoard.Store

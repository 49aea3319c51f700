import BountyBoard.Proofs.History
import Mathlib.Data.List.Induction

/-!
# One task along a history

A revision sets most fields of a task to whatever its creator wants, and what
an earlier one has set is gone then. So what is known of the fields of a task
is known from its latest revision on (`latest? (revision? i)`), and a task
without one has been moved by claims, submissions, approvals and rejections
alone.

`Sound.rowEvent` says what an event can do to the row of an id together with
what is noted of it as a revision, and `row_induction` is the induction on the
events with the latest revision beside the task. A new task has none: its id is
not below the next one, as every id is that a revision was accepted for
(`lt_nextId_of_revised`).

What is asked of every accepted revision of a task (`Revised`) is true of the
latest one in particular (`revised_latest`).
-/

namespace BountyBoard.Store

/-- The sender and the revision, if the event is an accepted revision of the
task `i`. -/
def revision? (i : TaskId) (s : Store) : Event → Option (String × Revision)
  | .message authority sender (.update id r) now =>
    if id = i ∧ s.answer? (.message authority sender (.update id r) now) ≠ none then
      some (sender, r)
    else none
  | _ => none

/-- If the event is an accepted revision of the task `i`, it is one that `P`
allows its sender. -/
def Revised (i : TaskId) (P : String → Revision → Prop) (s : Store) : Event → Prop
  | .message authority sender (.update id r) now =>
      id = i → s.answer? (.message authority sender (.update id r) now) ≠ none → P sender r
  | _ => True

/-! ## One event -/

/-- What an event can do to the row of the id `i`, and whether it is noted as a
revision. -/
inductive RowEvent (s : Store) (event : Event) (i : TaskId) : Prop
  | imported {g : Snapshot} {authority : String}
      (start : event = .start g authority)
      (rows : ∀ t, (s.next event).tasks.get? i = some t → t ∈ g.tasks)
  | kept
      (unrevised : s.revision? i event = none)
      (same : (s.next event).tasks.get? i = s.tasks.get? i)
  | posted {sender title description : String} {bounty : Coin} {now : Time}
      (unrevised : s.revision? i event = none)
      (next : i = s.nextId)
      (row : (s.next event).tasks.get? i
        = some (Task.posted i sender title description bounty now))
  | revised {sender : String} {now : Time} {r : Revision} {t : Task}
      (revision : s.revision? i event = some (sender, r))
      (found : s.tasks.get? i = some t)
      (move : t.Move sender now (.update t.id r) (some (revise t r now)))
      (row : (s.next event).tasks.get? i = some (revise t r now))
  | moved {sender : String} {now : Time} {m : Message} {t : Task}
      (unrevised : s.revision? i event = none)
      (found : s.tasks.get? i = some t)
      (move : t.Move sender now m ((s.next event).tasks.get? i))
      (other : ∀ r, m ≠ .update t.id r)

section

variable {s : Store} {i : TaskId} {event : Event}

theorem revision?_eq_some {sender : String} {r : Revision} :
    s.revision? i event = some (sender, r)
      ↔ ∃ authority now e, event = .message authority sender (.update i r) now
        ∧ s.Accepts authority sender now (.update i r) e := by
  constructor
  · intro h
    unfold revision? at h
    split at h
    · split_ifs at h with hnoted
      obtain ⟨rfl, hanswer⟩ := hnoted
      cases h
      obtain ⟨e, haccepts⟩ := accepts_of_answer? hanswer
      exact ⟨_, _, e, rfl, haccepts⟩
    · cases h
  · rintro ⟨authority, now, e, rfl, haccepts⟩
    have hanswer := answer?_eq_some.mpr ⟨e, haccepts, rfl⟩
    rw [revision?, if_pos ⟨rfl, hanswer ▸ Option.some_ne_none _⟩]

theorem Revised.of_revision? {P : String → Revision → Prop} (h : s.Revised i P event)
    {sender : String} {r : Revision} (hrevision : s.revision? i event = some (sender, r)) :
    P sender r := by
  obtain ⟨authority, now, e, rfl, haccepts⟩ := revision?_eq_some.mp hrevision
  refine h rfl ?_
  rw [answer?_eq_some.mpr ⟨e, haccepts, rfl⟩]
  exact Option.some_ne_none _

/-- A revision that is noted was a move of the task. -/
theorem rowEvent_of_revision? {sender : String} {r : Revision}
    (hrevision : s.revision? i event = some (sender, r)) : s.RowEvent event i := by
  obtain ⟨authority, now, e, rfl, haccepts⟩ := revision?_eq_some.mp hrevision
  have hnext : s.next (.message authority sender (.update i r) now) = s.commit e.writes :=
    after_eq haccepts
  cases haccepts with
  | @update _ _ t _ _ found creator _ gate edge =>
      obtain rfl := Table.key_of_get? found
      have hrow : (s.commit { tasks := [revise t r now] }).tasks.get? t.id
          = some (revise t r now) :=
        Table.get?_insert_self s.tasks _
      exact .revised hrevision found (.update creator gate edge) (hnext ▸ hrow)

theorem Sound.rowEvent (hs : s.Sound) (event : Event) (i : TaskId) : s.RowEvent event i := by
  cases hrevision : s.revision? i event with
  | some note => exact rowEvent_of_revision? hrevision
  | none =>
      cases s.outcome event with
      | refused same => exact .kept hrevision (by rw [same])
      | @started g authority start blank _ _ later =>
          refine .imported start fun t ht => ?_
          rw [later, hs.blank blank] at ht
          exact (Table.mem_of_get?_foldl_insert ht).1
      | @accepted authority sender m now e message accepts later =>
          cases accepts.rowStep i with
          | stays same => exact .kept hrevision (by rw [later, same])
          | posted _ next row => exact .posted hrevision next (by rw [later, row])
          | moved found move =>
              refine .moved hrevision found (later ▸ move) fun r hm => ?_
              subst hm
              rw [Table.key_of_get? found] at message accepts
              have hnoted := revision?_eq_some.mpr ⟨authority, now, e, message, accepts⟩
              cases hrevision.symm.trans hnoted

end

/-! ## Histories -/

theorem lt_nextId_of_revised {events : List Event} {i : TaskId}
    (h : empty.latest? (revision? i) events ≠ none) : i < (empty.afterAll events).nextId := by
  induction events using List.reverseRecOn with
  | nil => exact absurd rfl h
  | append_singleton events event ih =>
      have hs : Sound (empty.afterAll events) := sound_afterAll events
      have hbefore : i < (empty.afterAll events).nextId := by
        rw [latest?_concat] at h
        cases hrevision : (empty.afterAll events).revision? i event with
        | none =>
            rw [hrevision] at h
            exact ih h
        | some note =>
            obtain ⟨_, _, _, -, haccepts⟩ := revision?_eq_some.mp hrevision
            cases haccepts with
            | update _ found => exact hs.task_lt found
      rw [afterAll_append]
      exact UInt64.lt_of_lt_of_le hbefore (hs.nextId_le_next event)

/-- What a new task has, a revision gives, and every other move keeps, the
task `i` has at the end of a history that began without tasks. -/
theorem row_induction {I : Option (String × Revision) → Task → Prop} {events : List Event}
    {i : TaskId} (hstart : ∀ g authority, .start g authority ∈ events → g.tasks = [])
    (posted : ∀ sender title description bounty now,
      I none (Task.posted i sender title description bounty now))
    (revised : ∀ {sender now t r},
      t.Move sender now (.update t.id r) (some (revise t r now)) →
        I (some (sender, r)) (revise t r now))
    (moved : ∀ {latest sender now t t' m}, t.Move sender now m (some t') →
      (∀ r, m ≠ .update t.id r) → I latest t → I latest t')
    {t : Task} (ht : (empty.afterAll events).tasks.get? i = some t) :
    I (empty.latest? (revision? i) events) t := by
  induction events using List.reverseRecOn generalizing t with
  | nil => cases ht
  | append_singleton events event ih =>
      have hkept : ∀ {t}, (empty.afterAll events).tasks.get? i = some t →
          I (empty.latest? (revision? i) events) t :=
        ih fun g authority hmem => hstart g authority (List.mem_append_left _ hmem)
      rw [afterAll_append] at ht
      replace ht : ((empty.afterAll events).next event).tasks.get? i = some t := ht
      rw [latest?_concat]
      cases (sound_afterAll events).rowEvent event i with
      | @imported g authority start rows =>
          have hmem := rows t ht
          rw [hstart g authority (by simp [start])] at hmem
          cases hmem
      | kept unrevised same =>
          rw [unrevised]
          exact hkept (same ▸ ht)
      | posted unrevised next row =>
          have hnone : empty.latest? (revision? i) events = none := by
            by_contra hrevised
            exact UInt64.lt_irrefl _ (next ▸ lt_nextId_of_revised hrevised)
          rw [unrevised, hnone]
          cases ht.symm.trans row
          exact posted ..
      | revised revision _ move row =>
          rw [revision]
          cases ht.symm.trans row
          exact revised move
      | moved unrevised found move other =>
          rw [unrevised]
          rw [ht] at move
          exact moved move other (hkept found)

theorem revised_latest {events : List Event} {i : TaskId} {P : String → Revision → Prop}
    (h : Along (Revised i P) empty events) {sender : String} {r : Revision}
    (hlatest : empty.latest? (revision? i) events = some (sender, r)) : P sender r :=
  h.latest? (Q := fun note => P note.1 note.2) (fun _ _ _ hevent => hevent.of_revision?) hlatest

end BountyBoard.Store

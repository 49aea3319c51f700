import BountyBoard.Proofs.History
import BountyBoard.Proofs.Validity

/-!
# What every stored task keeps

Whatever writes a task looks it over first, under the parameters that are
stored from then on (`tasks_next`). A task that stays in the store keeps the
rules that are about the task alone, so every stored task is well formed at
any time. The limits are another matter: new parameters are not compared
with the tasks that are there, and a stored task stays valid only as long as
the limits are not narrowed below it. They never are when each replacement
of the parameters only widens them (`Widens`).
-/

namespace BountyBoard

namespace Store

/-- If the event replaces the parameters, the new ones only widen the limits. -/
def Widens (s : Store) (event : Event) : Prop :=
  ∀ p ∈ s.params, ∀ q ∈ (s.next event).params, p.WidensTo q

instance (s : Store) (event : Event) : Decidable (s.Widens event) :=
  inferInstanceAs (Decidable (∀ p ∈ s.params, ∀ q ∈ (s.next event).params, p.WidensTo q))

/-- The task `t` is valid under the parameters of the store. -/
def Upholds (s : Store) (t : Task) : Prop :=
  ∃ p, s.params = some p ∧ t.Valid p

/-- A task that an accepted message leaves in the store was there before, or
it passed the check under the parameters, which the message left alone. -/
theorem Accepts.tasks_cases {s : Store} {authority sender : String} {now : Time} {m : Message}
    {e : Effect} (h : s.Accepts authority sender now m e) {i : TaskId} {t : Task}
    (ht : (s.commit e.writes).tasks.get? i = some t) :
    s.tasks.get? i = some t ∨ (s.commit e.writes).Upholds t := by
  have written : ∀ {u p}, u.Valid p → (s.commit e.writes).params = some p →
      (s.tasks.insert u).get? i = some t →
        s.tasks.get? i = some t ∨ (s.commit e.writes).Upholds t := by
    intro u p hvalid hparams hget
    refine (Table.get?_insert_cases hget).imp_right fun heq => ?_
    exact ⟨p, hparams, heq ▸ hvalid⟩
  cases h with
  | create _ params valid => exact written valid params ht
  | update _ _ _ params _ _ valid => exact written valid params ht
  | @delete id =>
      replace ht : (s.tasks.erase id).get? i = some t := ht
      rw [Table.get?_erase] at ht
      split at ht
      · cases ht
      · exact .inl ht
  | claim _ _ _ _ _ params _ valid => exact written valid params ht
  | submit _ _ _ _ params _ _ valid => exact written valid params ht
  | approve _ _ _ _ params _ _ _ valid => exact written valid params ht
  | reject _ _ _ _ _ params _ valid => exact written valid params ht
  | setParams => exact .inl ht

/-- The same of any event. -/
theorem Sound.tasks_next {s : Store} (h : s.Sound) {event : Event} {i : TaskId} {t : Task}
    (ht : (s.next event).tasks.get? i = some t) :
    s.tasks.get? i = some t ∨ (s.next event).Upholds t := by
  cases s.outcome event with
  | refused same =>
      rw [same] at ht
      exact .inl ht
  | @started g _ _ blank _ sound later =>
      rw [later, h.blank blank] at ht ⊢
      have hmem : t ∈ g.tasks := (Table.mem_of_get?_foldl_insert ht).1
      exact .inr ⟨g.params, rfl, sound.valid t hmem⟩
  | accepted _ accepts later =>
      rw [later] at ht ⊢
      exact accepts.tasks_cases ht

theorem wellFormed_afterAll (events : List Event) {i : TaskId} {t : Task}
    (ht : (empty.afterAll events).tasks.get? i = some t) : t.WellFormed := by
  revert i t
  refine sound_empty.afterAll_induction
    (P := fun s => ∀ {i t}, s.tasks.get? i = some t → t.WellFormed) (fun ht => by cases ht) ?_
  intro s event _ hs hform i t ht
  rcases hs.tasks_next ht with hold | ⟨p, -, hvalid⟩
  · exact hform hold
  · exact (Task.valid_iff_fits.mp hvalid).1

/-- Parameters are never taken away from a task. -/
theorem Sound.params_of_task {s : Store} (h : s.Sound) {i : TaskId} {t : Task}
    (ht : s.tasks.get? i = some t) : ∃ p, s.params = some p := by
  refine Option.ne_none_iff_exists'.mp fun hblank => ?_
  rw [h.tasks_blank hblank] at ht
  cases ht

theorem upholds_afterAll {events : List Event} (hwide : Along Widens empty events) {i : TaskId}
    {t : Task} (ht : (empty.afterAll events).tasks.get? i = some t) :
    (empty.afterAll events).Upholds t := by
  revert i t
  refine sound_empty.along_induction (Q := fun s => ∀ {i t}, s.tasks.get? i = some t → s.Upholds t)
    (fun ht => by cases ht) hwide ?_
  intro s event _ hs hevent hvalid i t ht
  rcases hs.tasks_next ht with hold | hnew
  · obtain ⟨p, hp, hvalid⟩ := hvalid hold
    obtain ⟨q, hq⟩ := (hs.next event).params_of_task ht
    exact ⟨q, hq, hvalid.mono (hevent p hp q hq)⟩
  · exact hnew

/-- Every stored task is well formed and its id was given out. If the limits
were only ever widened, it is valid under the stored parameters as well. -/
theorem stored_tasks_valid (events : List Event) :
    (∀ t ∈ (empty.afterAll events).tasks.rows,
      t.WellFormed ∧ t.id < (empty.afterAll events).nextId)
    ∧ (Along Widens empty events →
      ∀ t ∈ (empty.afterAll events).tasks.rows,
        ∃ p, (empty.afterAll events).params = some p ∧ t.Valid p) := by
  refine ⟨?_, ?_⟩
  · intro t hmem
    have ht := Table.get?_of_mem hmem
    exact ⟨wellFormed_afterAll events ht, (sound_afterAll events).task_lt ht⟩
  · intro hwide t hmem
    exact upholds_afterAll hwide (Table.get?_of_mem hmem)

end Store

namespace Sample

/-- Parameters with a lower minimum and more room for titles. -/
def wider : Params :=
  { Params.default with minBounty := ⟨⟨500, by decide⟩, "stake"⟩, maxTitleLength := 200 }

def widening : Event := sent alice (.setParams wider) 12

end Sample

/-- The task of the sample history under wider parameters. -/
theorem Store.stored_tasks_valid_sample :
    Along Widens empty (Sample.untilReview ++ [Sample.widening])
    ∧ (empty.afterAll (Sample.untilReview ++ [Sample.widening])).params = some Sample.wider
    ∧ Sample.waiting ∈ (empty.afterAll (Sample.untilReview ++ [Sample.widening])).tasks.rows
    ∧ ∃ p, (empty.afterAll (Sample.untilReview ++ [Sample.widening])).params = some p
      ∧ Sample.waiting.Valid p := by
  have hwide : Along Widens empty (Sample.untilReview ++ [Sample.widening]) := by
    decide +kernel
  have hmem : Sample.waiting
      ∈ (empty.afterAll (Sample.untilReview ++ [Sample.widening])).tasks.rows := by
    decide +kernel
  exact ⟨hwide, by decide +kernel, hmem, (stored_tasks_valid _).2 hwide _ hmem⟩

end BountyBoard

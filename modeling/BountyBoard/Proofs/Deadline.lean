import BountyBoard.Proofs.FreshIds
import BountyBoard.Proofs.Validity
import Mathlib.Data.List.Induction

/-!
# Deadlines run from the last move

A task has one field for the time of its last change, and the deadlines for
submitting and reviewing are counted from it. That they count the time since
the claim and since the submission is a fact about histories: whatever
writes a task also moves it to another status, so nothing touches the field
while the task stays claimed or submitted. One event at a time this is
`Sound.stamps`, with the time that an event notes for a task (`stamp?`) read
off the message and its answer, not off the stored task. Along a history the
stored time is the latest one noted, and the latest one noted for coming to
the present status as well (`stamped_afterAll`).

The deadlines are checked in 64 bits, with durations and sums cut off at the
latest time. Cutting off can only make a deadline earlier, so what passes
the check is in time in exact numbers too (`within_of_pastDeadline`); and a
stored task has no negative times, for which cutting off makes no difference
(`pastDeadline_eq_false_iff`). No clock is assumed: the times of the messages
may go back and forth.
-/

namespace BountyBoard

/-! ## Exact numbers -/

/-- No more than the duration lies between the reference time and now. A
duration of zero sets no limit. -/
def Within (reference now : Time) (duration : Count) : Prop :=
  duration ≠ 0 → now.toInt ≤ reference.toInt + duration.toNat

theorem within_of_pastDeadline {reference now : Time} {duration : Count}
    (h : pastDeadline now reference duration = false) : Within reference now duration := by
  intro hduration
  have hle : now.toInt
      ≤ min (reference.toInt + min (duration.toNat : Int) latestTime) latestTime := by
    simpa [pastDeadline, hduration] using h
  omega

/-- Counted from a time that is not negative, cutting off changes nothing:
the latest time is as late as any time there is. -/
theorem pastDeadline_eq_false_iff {reference now : Time} {duration : Count}
    (h : 0 ≤ reference.toInt) :
    pastDeadline now reference duration = false ↔ Within reference now duration := by
  refine ⟨within_of_pastDeadline, fun hwithin => ?_⟩
  by_cases hduration : duration = 0
  · simp [pastDeadline, hduration]
  · have hle := hwithin hduration
    have hlatest : now.toInt ≤ latestTime := Int64.toInt_le now
    simp only [pastDeadline, hduration, ne_eq, not_false_eq_true, decide_true, Bool.true_and,
      decide_eq_false_iff_not, Int.not_lt]
    omega

/-- The deadlines for submitting and for reviewing are those of a task that
somebody has claimed. -/
theorem Task.within_of_claimant {t : Task} {now : Time} {duration : Count}
    (hclaimant : t.claimant ≠ none)
    (h : (t.claimant.isSome && pastDeadline now t.updatedAt duration) = false) :
    Within t.updatedAt now duration := by
  rw [Option.isSome_iff_ne_none.mpr hclaimant, Bool.true_and] at h
  exact within_of_pastDeadline h

/-- A well-formed task was not changed before the epoch, so the check of such
a deadline is exact. -/
theorem Task.WellFormed.within_iff {t : Task} (h : t.WellFormed) (hclaimant : t.claimant ≠ none)
    {now : Time} {duration : Count} :
    (t.claimant.isSome && pastDeadline now t.updatedAt duration) = false
      ↔ Within t.updatedAt now duration := by
  have hcreated := Int64.lt_iff_toInt_lt.mp h.created
  have hupdated := Int64.le_iff_toInt_le.mp h.updated
  have hzero : (0 : Int64).toInt = 0 := rfl
  rw [Option.isSome_iff_ne_none.mpr hclaimant, Bool.true_and]
  exact pastDeadline_eq_false_iff (by omega)

/-! ## Writing a task -/

/-- The task that an answer says was written. -/
def Response.written? : Response → Option TaskId
  | created id => some id
  | updated id _ => some id
  | approved r => some r.taskId
  | deleted _ => none
  | paramsUpdated => none

namespace Store

/-- The time that an event gives to the task `i`: the time of a message that
writes the task, or the one that the task has in a snapshot that is put in. -/
def stamp? (i : TaskId) (s : Store) (event : Event) : Option Time :=
  match event with
  | .start .. =>
    (s.imported? event).bind fun g => (g.tasks.find? fun t => t.id == i).map Task.updatedAt
  | .message _ _ _ now =>
    if (s.answer? event).bind Response.written? = some i then some now else none

/-- The same time, if the event brings the task to the status from another
one or from nowhere. -/
def arrival? (i : TaskId) (status : Status) (s : Store) (event : Event) : Option Time :=
  if (s.tasks.get? i).map Task.status ≠ some status
      ∧ ((s.next event).tasks.get? i).map Task.status = some status then
    s.stamp? i event
  else none

/-- What an event can do to the task `i` and its time: leave both alone, or
give the task its time together with a new status. -/
inductive Stamps (s : Store) (event : Event) (i : TaskId) : Prop
  | untouched
      (unwritten : s.stamp? i event = none)
      (kept : ∀ t, (s.next event).tasks.get? i = some t → s.tasks.get? i = some t)
  | written {t : Task}
      (row : (s.next event).tasks.get? i = some t)
      (time : s.stamp? i event = some t.updatedAt)
      (moved : (s.tasks.get? i).map Task.status ≠ some t.status)

section

variable {s : Store} {authority sender : String} {m : Message} {now : Time} {e : Effect}

/-- A move writes its task at the time of the message, and no move leaves the
status as it is. -/
theorem written_of_move {s' : Store} {t t' : Task} {i id : TaskId} (named : some id = some i)
    (found : s.tasks.get? id = some t) (move : t.Move sender now m (some t'))
    (h : s'.tasks = s.tasks.insert t') :
    ∃ u, s'.tasks.get? i = some u ∧ u.updatedAt = now
      ∧ (s.tasks.get? i).map Task.status ≠ some u.status := by
  obtain rfl := Option.some.inj named
  obtain rfl := Table.key_of_get? found
  refine ⟨t', ?_, move.time, ?_⟩
  · rw [h, ← move.kept.1, Table.get?_insert_self]
  · rw [found]
    intro hsame
    have hedge := move.edge
    rw [Option.some.inj hsame, Status.not_canBecome_self] at hedge
    cases hedge

/-- The task that an answer names stands there afterwards. -/
theorem Accepts.writes_task (h : s.Accepts authority sender now m e) (hs : s.Sound) {i : TaskId}
    (hi : e.response.written? = some i) :
    ∃ t, (s.commit e.writes).tasks.get? i = some t ∧ t.updatedAt = now
      ∧ (s.tasks.get? i).map Task.status ≠ some t.status := by
  cases h with
  | create =>
      obtain rfl := Option.some.inj hi
      refine ⟨_, Table.get?_insert_self s.tasks _, rfl, ?_⟩
      rw [hs.tasks_nextId]
      exact nofun
  | update _ found creator _ gate edge =>
      exact written_of_move hi found (.update creator gate edge) rfl
  | delete => cases hi
  | claim _ found status other unclaimed =>
      exact written_of_move hi found (.claim status other unclaimed) rfl
  | submit _ found status claimant =>
      exact written_of_move hi found (.submit status claimant) rfl
  | @approve _ txHash _ _ _ _ found status creator =>
      exact written_of_move hi found (m := .approve _ txHash) (.approve status creator) rfl
  | reject _ found status creator =>
      exact written_of_move hi found (.reject status creator) rfl
  | setParams => cases hi

/-- A task that the answer does not name is the one that stood there before. -/
theorem Accepts.keeps_task (h : s.Accepts authority sender now m e) {i : TaskId}
    (hi : e.response.written? ≠ some i) {t : Task}
    (ht : (s.commit e.writes).tasks.get? i = some t) : s.tasks.get? i = some t := by
  cases h.rowStep i with
  | stays same => rwa [same] at ht
  | posted create next =>
      subst create
      cases h
      exact absurd (congrArg some next.symm) hi
  | moved found move =>
      -- every move that leaves a task is answered with the id of the task
      obtain rfl := Table.key_of_get? found
      rw [ht] at move
      cases move <;> cases h <;> exact absurd rfl hi

theorem Accepts.stamps (h : s.Accepts authority sender now m e) (hs : s.Sound) (i : TaskId) :
    s.Stamps (.message authority sender m now) i := by
  have hnext : s.next (.message authority sender m now) = s.commit e.writes := after_eq h
  have hanswer : s.answer? (.message authority sender m now) = some e.response :=
    answer?_eq_some.mpr ⟨e, h, rfl⟩
  by_cases hi : e.response.written? = some i
  · obtain ⟨t, hrow, htime, hmoved⟩ := h.writes_task hs hi
    refine .written (hnext ▸ hrow) ?_ hmoved
    simp only [stamp?, hanswer, Option.bind_some, hi, if_true, htime]
  · refine .untouched ?_ fun t ht => h.keeps_task hi (hnext ▸ ht)
    simp only [stamp?, hanswer, Option.bind_some, hi, if_false]

end

/-- A snapshot comes into a store without tasks, and no two of its own have
the same id. -/
theorem stamps_of_start {s : Store} (hs : s.Sound) {g : Snapshot} {authority : String}
    {later : Store} (hinit : s.initialise g authority = .ok later) (i : TaskId) :
    s.Stamps (.start g authority) i := by
  obtain ⟨hblank, -, hsound, rfl⟩ := initialise_eq_ok.mp hinit
  have hrow : (s.next (.start g authority)).tasks.get? i = g.tasks.find? fun t => t.id == i := by
    rw [next_started hinit, hs.blank hblank]
    exact Table.get?_foldl_insert_of_nodup hsound.distinct i
  have hstamp : s.stamp? i (.start g authority)
      = ((s.next (.start g authority)).tasks.get? i).map Task.updatedAt := by
    simp only [stamp?, imported?, hinit, Option.bind_some, hrow]
  cases hlater : (s.next (.start g authority)).tasks.get? i with
  | none =>
      refine .untouched (by rw [hstamp, hlater]; rfl) fun t ht => ?_
      cases hlater.symm.trans ht
  | some t =>
      refine .written hlater (by rw [hstamp, hlater]; rfl) ?_
      rw [hs.tasks_blank hblank]
      exact (Option.some_ne_none t.status).symm

theorem Sound.stamps {s : Store} (h : s.Sound) (event : Event) (i : TaskId) :
    s.Stamps event i := by
  cases event with
  | start g authority =>
      cases hinit : s.initialise g authority with
      | ok later => exact stamps_of_start h hinit i
      | error refusal =>
          refine .untouched ?_ fun t ht => next_start_refused hinit ▸ ht
          simp only [stamp?, imported?, hinit, Option.bind_none]
  | message authority sender m now =>
      cases heffect : s.effect authority sender m now with
      | ok e => exact (effect_eq_ok.mp heffect).stamps h i
      | error refusal =>
          refine .untouched ?_ fun t ht => next_refused heffect ▸ ht
          rw [stamp?, answer?_refused heffect]
          rfl

/-! ## Histories -/

/-- The time of a stored task is the latest that was given to it, and it has
had its status since then. -/
theorem stamped_afterAll (events : List Event) {i : TaskId} {t : Task}
    (ht : (empty.afterAll events).tasks.get? i = some t) :
    empty.latest? (stamp? i) events = some t.updatedAt
      ∧ empty.latest? (arrival? i t.status) events = some t.updatedAt := by
  induction events using List.reverseRecOn generalizing t with
  | nil => cases ht
  | append_singleton events event ih =>
      rw [afterAll_append] at ht
      replace ht : ((empty.afterAll events).next event).tasks.get? i = some t := ht
      rw [latest?_concat, latest?_concat]
      cases (sound_afterAll events).stamps event i with
      | untouched unwritten kept =>
          have harrival : (empty.afterAll events).arrival? i t.status event = none := by
            rw [arrival?, unwritten, ite_self]
          rw [unwritten, harrival]
          exact ih (kept t ht)
      | written row time moved =>
          obtain rfl := Option.some.inj (ht.symm.trans row)
          have harrival : (empty.afterAll events).arrival? i t.status event = some t.updatedAt := by
            rw [arrival?, if_pos ⟨moved, congrArg (Option.map Task.status) row⟩, time]
          rw [time, harrival]
          exact ⟨rfl, rfl⟩

/-- After the events, the time `now` lies within a duration that the
parameters set, counted from when the task `i` last came to the status. -/
def InTime (events : List Event) (i : TaskId) (status : Status) (now : Time)
    (duration : Params → Count) : Prop :=
  ∃ p since, (empty.afterAll events).params = some p
    ∧ empty.latest? (arrival? i status) events = some since ∧ Within since now (duration p)

theorem inTime_of_within {events : List Event} {i : TaskId} {t : Task} {p : Params} {now : Time}
    {duration : Params → Count} {status : Status}
    (found : (empty.afterAll events).tasks.get? i = some t) (hstatus : t.status = status)
    (hp : (empty.afterAll events).params = some p)
    (h : Within t.updatedAt now (duration p)) : InTime events i status now duration := by
  have harrival := (stamped_afterAll events found).2
  rw [hstatus] at harrival
  exact ⟨p, t.updatedAt, hp, harrival, h⟩

/-- A stored task carries the time of whatever wrote it last. So each
accepted claim comes after the creation of the task and before it expires,
each accepted submission within its deadline from when the task was claimed,
and each accepted approval or rejection within its deadline from when the
task was submitted, in exact numbers and under the parameters of the moment. -/
theorem acted_in_time (events : List Event) :
    (∀ t ∈ (empty.afterAll events).tasks.rows,
      empty.latest? (stamp? t.id) events = some t.updatedAt)
    ∧ (∀ (authority sender : String) (i : TaskId) (now : Time),
      (empty.afterAll events).answer? (.message authority sender (.claim i) now) ≠ none →
        ∃ p t, (empty.afterAll events).params = some p
          ∧ (empty.afterAll events).tasks.get? i = some t
          ∧ t.createdAt.toInt ≤ now.toInt ∧ Within t.createdAt now p.taskExpiry)
    ∧ (∀ (authority sender : String) (i : TaskId) (evidence : Evidence) (now : Time),
      (empty.afterAll events).answer? (.message authority sender (.submit i evidence) now)
          ≠ none →
        InTime events i .claimed now Params.claimDeadline)
    ∧ (∀ (authority sender : String) (i : TaskId) (txHash : String) (now : Time),
      (empty.afterAll events).answer? (.message authority sender (.approve i txHash) now)
          ≠ none →
        InTime events i .submitted now Params.submissionDeadline)
    ∧ ∀ (authority sender : String) (i : TaskId) (reason : String) (now : Time) (t : Task),
      (empty.afterAll events).answer? (.message authority sender (.reject i reason) now)
          ≠ none →
        (empty.afterAll events).tasks.get? i = some t → t.claimant ≠ none →
          InTime events i .submitted now Params.submissionDeadline := by
  refine ⟨?_, ?_, ?_, ?_, ?_⟩
  · intro t hmem
    exact (stamped_afterAll events (Table.get?_of_mem hmem)).1
  · intro authority sender i now hanswer
    obtain ⟨e, haccepts⟩ := accepts_of_answer? hanswer
    cases haccepts with
    | @claim _ t p _ found _ _ _ params inTime valid =>
        have hcreated := (Task.valid_iff_fits.mp valid).1.updated
        exact ⟨p, t, params, found, Int64.le_iff_toInt_le.mp hcreated,
          within_of_pastDeadline inTime⟩
  · intro authority sender i evidence now hanswer
    obtain ⟨e, haccepts⟩ := accepts_of_answer? hanswer
    cases haccepts with
    | submit _ found status claimant params _ inTime =>
        have hclaimant := claimant ▸ Option.some_ne_none sender
        exact inTime_of_within found status params
          (Task.within_of_claimant hclaimant inTime)
  · intro authority sender i txHash now hanswer
    obtain ⟨e, haccepts⟩ := accepts_of_answer? hanswer
    cases haccepts with
    | @approve _ _ who _ _ _ found status _ params inTime _ claimant =>
        have hclaimant := claimant ▸ Option.some_ne_none who
        exact inTime_of_within found status params
          (Task.within_of_claimant hclaimant inTime)
  · intro authority sender i reason now t hanswer ht hclaimant
    obtain ⟨e, haccepts⟩ := accepts_of_answer? hanswer
    cases haccepts with
    | reject _ found status _ _ params inTime =>
        cases found.symm.trans ht
        exact inTime_of_within found status params
          (Task.within_of_claimant hclaimant inTime)

/-- In the sample the deadline for the second submission is counted from the
second claim, at 10, and that for the review from the submission, at 11. -/
theorem acted_in_time_sample :
    empty.latest? (stamp? 0) Sample.untilReview = some 11
    ∧ empty.latest? (arrival? 0 .claimed) Sample.untilReview = some 10
    ∧ (∃ p t, (empty.afterAll (Sample.untilReview.take 6)).params = some p
      ∧ (empty.afterAll (Sample.untilReview.take 6)).tasks.get? 0 = some t
      ∧ t.createdAt.toInt ≤ 10 ∧ Within t.createdAt 10 p.taskExpiry)
    ∧ InTime (Sample.untilReview.take 7) 0 .claimed 11 Params.claimDeadline
    ∧ InTime Sample.untilReview 0 .submitted 12 Params.submissionDeadline
    ∧ InTime Sample.untilReview 0 .submitted 13 Params.submissionDeadline := by
  refine ⟨?_, by decide +kernel, ?_, ?_, ?_, ?_⟩
  · have hmem : Sample.waiting ∈ (empty.afterAll Sample.untilReview).tasks.rows :=
      Table.mem_of_get? Sample.task_untilReview
    exact (acted_in_time Sample.untilReview).1 Sample.waiting hmem
  · exact (acted_in_time (Sample.untilReview.take 6)).2.1 Sample.alice Sample.bob 0 10
      (by decide +kernel)
  · exact (acted_in_time (Sample.untilReview.take 7)).2.2.1 Sample.alice Sample.bob 0
      Sample.evidence 11 (by decide +kernel)
  · exact (acted_in_time Sample.untilReview).2.2.2.1 Sample.alice Sample.alice 0 "tx-1" 12
      (by decide +kernel)
  · exact (acted_in_time Sample.untilReview).2.2.2.2 Sample.alice Sample.alice 0
      "It still leaks." 13 Sample.waiting (by decide +kernel) Sample.task_untilReview nofun

end Store

end BountyBoard

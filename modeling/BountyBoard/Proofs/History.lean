import BountyBoard.History
import BountyBoard.Proofs.Payment
import BountyBoard.Proofs.Snapshot

/-!
# What every history keeps

An event either is refused and changes nothing, or puts a sound snapshot
into a store without parameters, or is a message accepted by a rule
(`outcome`). What holds of a store and is kept by these three holds at
the end of every history (`afterAll_induction`).

`Store.Sound` is the invariant that the laws of histories rest on. A store
without parameters is the empty one, so a snapshot meets no rows. Ids below
the next one are used up, in both tables, so a posted task displaces
nothing. A task with a reward has come to `approved` or `closed`, and no
edge leads back from there.

What a history says to the outside are its `answers`, one for each message
that was accepted. What is asked of each event together with the store that
it finds is asked `Along` the history, and what is noted of each is kept in
mind as the `latest?`.
-/

namespace BountyBoard

/-- The statuses that a task can have after it was paid for. -/
def Status.Settled (status : Status) : Prop :=
  status = .approved ∨ status = .closed

theorem Status.Settled.of_edge {a b : Status} (h : a.Settled) (edge : a.canBecome b = true) :
    b.Settled := by
  rcases h with rfl | rfl <;> cases b <;> first | exact .inr rfl | cases edge

namespace Store

/-! ## Events -/

theorem after_eq {s : Store} {authority sender : String} {m : Message} {now : Time} {e : Effect}
    (h : s.Accepts authority sender now m e) :
    s.after authority sender m now = s.commit e.writes := by
  rw [after, apply_eq_ok.mpr ⟨e, h, rfl, rfl⟩]

theorem next_refused {s : Store} {authority sender : String} {m : Message} {now : Time}
    {refusal : Refusal} (h : s.effect authority sender m now = .error refusal) :
    s.next (.message authority sender m now) = s := by
  rw [next, after, apply, h]
  rfl

theorem next_started {s later : Store} {g : Snapshot} {authority : String}
    (h : s.initialise g authority = .ok later) : s.next (.start g authority) = later := by
  rw [next, h]

theorem next_start_refused {s : Store} {g : Snapshot} {authority : String} {refusal : Refusal}
    (h : s.initialise g authority = .error refusal) : s.next (.start g authority) = s := by
  rw [next, h]

/-- What can come of an event in the store `s`. -/
inductive Outcome (s : Store) (event : Event) : Prop
  | refused (same : s.next event = s)
  | started {g : Snapshot} {authority : String}
      (start : event = .start g authority)
      (blank : s.params = none)
      (address : Address.IsText authority)
      (sound : g.Sound)
      (later : s.next event = s.commit (g.writes authority))
  | accepted {authority sender : String} {m : Message} {now : Time} {e : Effect}
      (message : event = .message authority sender m now)
      (accepts : s.Accepts authority sender now m e)
      (later : s.next event = s.commit e.writes)

theorem outcome (s : Store) (event : Event) : s.Outcome event := by
  cases event with
  | start g authority =>
      cases hinit : s.initialise g authority with
      | error refusal => exact .refused (next_start_refused hinit)
      | ok later =>
          obtain ⟨hblank, haddress, hsound, rfl⟩ := initialise_eq_ok.mp hinit
          exact .started rfl hblank haddress hsound (next_started hinit)
  | message authority sender m now =>
      cases heffect : s.effect authority sender m now with
      | error refusal => exact .refused (next_refused heffect)
      | ok e =>
          have haccepts := effect_eq_ok.mp heffect
          exact .accepted rfl haccepts (after_eq haccepts)

theorem afterAll_append (s : Store) (first second : List Event) :
    s.afterAll (first ++ second) = (s.afterAll first).afterAll second :=
  List.foldl_append

/-- What each event of a history keeps holds at its end. -/
theorem afterAll_induction {P : Store → Prop} {events : List Event} {s : Store} (start : P s)
    (step : ∀ s, ∀ event ∈ events, P s → P (s.next event)) : P (s.afterAll events) := by
  induction events generalizing s with
  | nil => exact start
  | cons event rest ih =>
      exact ih (step s event List.mem_cons_self start)
        fun s later hlater => step s later (List.mem_cons_of_mem event hlater)

/-- Each event of a history stands to the store that it finds as `P` says. -/
def Along (P : Store → Event → Prop) : Store → List Event → Prop
  | _, [] => True
  | s, event :: rest => P s event ∧ Along P (s.next event) rest

instance decidableAlong {P : Store → Event → Prop} [∀ s event, Decidable (P s event)] :
    ∀ s events, Decidable (Along P s events)
  | _, [] => .isTrue trivial
  | s, event :: rest =>
    have : Decidable (Along P (s.next event) rest) := decidableAlong (s.next event) rest
    inferInstanceAs (Decidable (P s event ∧ Along P (s.next event) rest))

/-! ## Answers -/

/-- What is answered to an event. Snapshots and refused messages get no
answer. -/
def answer? (s : Store) : Event → Option Response
  | .start .. => none
  | .message authority sender m now =>
    match s.apply authority sender m now with
    | .ok (_, answer) => some answer
    | .error _ => none

/-- The answers to the events of a history, in their order. -/
def answers (s : Store) : List Event → List Response
  | [] => []
  | event :: rest => (s.answer? event).toList ++ (s.next event).answers rest

theorem answer?_eq_some {s : Store} {authority sender : String} {m : Message} {now : Time}
    {answer : Response} :
    s.answer? (.message authority sender m now) = some answer
      ↔ ∃ e, s.Accepts authority sender now m e ∧ e.response = answer := by
  rw [answer?]
  constructor
  · intro h
    split at h
    · rename_i later answer' happly
      cases h
      obtain ⟨e, haccepts, -, hanswer⟩ := apply_eq_ok.mp happly
      exact ⟨e, haccepts, hanswer⟩
    · cases h
  · rintro ⟨e, haccepts, rfl⟩
    rw [apply_eq_ok.mpr ⟨e, haccepts, rfl, rfl⟩]

/-- A message that is answered was accepted. -/
theorem accepts_of_answer? {s : Store} {authority sender : String} {m : Message} {now : Time}
    (h : s.answer? (.message authority sender m now) ≠ none) :
    ∃ e, s.Accepts authority sender now m e := by
  obtain ⟨answer, hanswer⟩ := Option.ne_none_iff_exists'.mp h
  obtain ⟨e, haccepts, -⟩ := answer?_eq_some.mp hanswer
  exact ⟨e, haccepts⟩

theorem answer?_refused {s : Store} {authority sender : String} {m : Message} {now : Time}
    {refusal : Refusal} (h : s.effect authority sender m now = .error refusal) :
    s.answer? (.message authority sender m now) = none := by
  rw [answer?, apply, h]
  rfl

/-- What some answers report, the report of the first event in front. -/
theorem filterMap_answers_cons {α : Type} (f : Response → Option α) (s : Store) (event : Event)
    (rest : List Event) :
    (s.answers (event :: rest)).filterMap f
      = ((s.answer? event).bind f).toList ++ ((s.next event).answers rest).filterMap f := by
  rw [answers, List.filterMap_append]
  cases s.answer? event with
  | none => rfl
  | some answer => cases hreport : f answer <;> simp [hreport]

/-! ## What was noted last -/

/-- The last thing noted along a history, where `note` says what is noted of
an event in the store that it finds. -/
def latest? {α : Type} (note : Store → Event → Option α) (s : Store) : List Event → Option α
  | [] => none
  | event :: rest => ((s.next event).latest? note rest).or (note s event)

theorem latest?_concat {α : Type} (note : Store → Event → Option α) (s : Store)
    (events : List Event) (event : Event) :
    s.latest? note (events ++ [event])
      = (note (s.afterAll events) event).or (s.latest? note events) := by
  induction events generalizing s with
  | nil => simp [latest?, afterAll]
  | cons first rest ih =>
      rw [List.cons_append, latest?, ih, Option.or_assoc]
      rfl

/-- What is noted of events that stand to their stores in a certain way is
true of what was noted last. -/
theorem Along.latest? {α : Type} {note : Store → Event → Option α} {P : Store → Event → Prop}
    {Q : α → Prop} {s : Store} {events : List Event} (h : Along P s events)
    (hnote : ∀ s event a, P s event → note s event = some a → Q a) {a : α}
    (hlast : s.latest? note events = some a) : Q a := by
  induction events generalizing s with
  | nil => cases hlast
  | cons event rest ih =>
      rcases Option.or_eq_some_iff.mp hlast with hlater | ⟨-, hfirst⟩
      · exact ih h.2 hlater
      · exact hnote s event a h.1 hfirst

/-- What each event either replaces or leaves is what replaced it last. -/
theorem afterAll_eq_latest? {α : Type} {note : Store → Event → Option α} {f : Store → Option α}
    (step : ∀ s event, f (s.next event) = (note s event).or (f s)) (s : Store)
    (events : List Event) : f (s.afterAll events) = (s.latest? note events).or (f s) := by
  induction events generalizing s with
  | nil => rfl
  | cons event rest ih =>
      have hrest : f (s.afterAll (event :: rest)) = _ := ih (s.next event)
      rw [hrest, step, latest?, Option.or_assoc]

/-! ## The invariant -/

/-- What is true of the store of a board at any time. -/
structure Sound (s : Store) : Prop where
  blank : s.params = none → s = .empty
  task_lt : ∀ {i t}, s.tasks.get? i = some t → i < s.nextId
  reward_lt : ∀ {i r}, s.rewards.get? i = some r → i < s.nextId
  defined : ∀ {i t}, s.tasks.get? i = some t → t.status ≠ .undefined
  settled : ∀ {i r t}, s.rewards.get? i = some r → s.tasks.get? i = some t → t.status.Settled

theorem sound_empty : Sound .empty where
  blank _ := rfl
  task_lt h := by cases h
  reward_lt h := by cases h
  defined h := by cases h
  settled h := by cases h

theorem Sound.tasks_blank {s : Store} (h : s.Sound) (hblank : s.params = none) (i : TaskId) :
    s.tasks.get? i = none := by
  rw [h.blank hblank]
  rfl

/-- No id is used up before a snapshot. -/
theorem Sound.not_lt_nextId {s : Store} (h : s.Sound) (hblank : s.params = none) (i : TaskId) :
    ¬ i < s.nextId := by
  rw [h.blank hblank]
  exact UInt64.not_lt_zero

/-- Nobody will be paid for the id any more: it was given out, and its task,
if there is one, has come to where no edge leads back to a review. -/
structure Spent (s : Store) (i : TaskId) : Prop where
  used : i < s.nextId
  settled : ∀ {t}, s.tasks.get? i = some t → t.status.Settled

/-- What was paid for once is spent. -/
theorem Sound.spent {s : Store} (h : s.Sound) {i : TaskId} {r : Reward}
    (hr : s.rewards.get? i = some r) : s.Spent i where
  used := h.reward_lt hr
  settled ht := h.settled hr ht

/-- The next id belongs to nobody yet. -/
theorem Sound.tasks_nextId {s : Store} (h : s.Sound) : s.tasks.get? s.nextId = none := by
  rw [Option.eq_none_iff_forall_ne_some]
  intro t ht
  exact UInt64.lt_irrefl _ (h.task_lt ht)

theorem Sound.started {s : Store} (h : s.Sound) {g : Snapshot} {authority : String}
    (hblank : s.params = none) (hg : g.Sound) : Sound (s.commit (g.writes authority)) := by
  rw [h.blank hblank]
  have hrow : ∀ {i t}, (Store.empty.commit (g.writes authority)).tasks.get? i = some t →
      t ∈ g.tasks ∧ t.id = i := Table.mem_of_get?_foldl_insert
  refine
    { blank := fun hnone => by cases hnone
      task_lt := ?_
      reward_lt := fun hr => by cases hr
      defined := ?_
      settled := fun hr => by cases hr }
  · intro i t ht
    obtain ⟨hmem, rfl⟩ := hrow ht
    exact hg.below t hmem
  · intro i t ht hundefined
    have hstatus := Task.valid_iff.mp (hg.valid t (hrow ht).1) .status
    rw [Task.faultIn, Task.statusFault?, if_pos hundefined] at hstatus
    cases hstatus

section

variable {s : Store} {authority sender : String} {now : Time} {m : Message} {e : Effect}

theorem Sound.params_ne_none (h : s.Sound) (haccepts : s.Accepts authority sender now m e) :
    (s.commit e.writes).params ≠ none := by
  have kept : ∀ {p}, s.params = some p → s.params ≠ none := fun hp hnone => by
    rw [hp] at hnone
    cases hnone
  cases haccepts with
  | create _ params => exact kept params
  | update _ _ _ params => exact kept params
  | delete _ found =>
      -- this rule asks for no parameters, but for a task, and a blank store has none
      intro hnone
      rw [h.tasks_blank hnone] at found
      cases found
  | claim _ _ _ _ _ params => exact kept params
  | submit _ _ _ _ params => exact kept params
  | approve _ _ _ _ params => exact kept params
  | reject _ _ _ _ _ params => exact kept params
  | setParams => exact fun hnone => by cases hnone

theorem Sound.task_lt_accepted (h : s.Sound) (haccepts : s.Accepts authority sender now m e)
    {i : TaskId} {t : Task} (ht : (s.commit e.writes).tasks.get? i = some t) :
    i < (s.commit e.writes).nextId := by
  cases haccepts.rowStep i with
  | stays same =>
      rw [same] at ht
      exact UInt64.lt_of_lt_of_le (h.task_lt ht) haccepts.nextId_le
  | posted create next =>
      subst create
      subst next
      exact haccepts.lt_nextId_create
  | moved found => exact UInt64.lt_of_lt_of_le (h.task_lt found) haccepts.nextId_le

theorem Spent.accepted {i : TaskId} (h : s.Spent i) (haccepts : s.Accepts authority sender now m e) :
    Spent (s.commit e.writes) i where
  used := UInt64.lt_of_lt_of_le h.used haccepts.nextId_le
  settled := by
    intro t ht
    cases haccepts.rowStep i with
    | stays same =>
        rw [same] at ht
        exact h.settled ht
    | posted _ next =>
        -- a new task takes an id above all those that were used
        exact absurd (next ▸ h.used) (UInt64.lt_irrefl _)
    | moved found move =>
        rw [ht] at move
        exact (h.settled found).of_edge move.edge

theorem Sound.defined_accepted (h : s.Sound) (haccepts : s.Accepts authority sender now m e)
    {i : TaskId} {t : Task} (ht : (s.commit e.writes).tasks.get? i = some t) :
    t.status ≠ .undefined := by
  cases haccepts.rowStep i with
  | stays same =>
      rw [same] at ht
      exact h.defined ht
  | posted _ _ row =>
      rw [ht] at row
      cases row
      exact fun hundefined => by cases hundefined
  | moved found move =>
      rw [ht] at move
      intro hundefined
      have hedge := move.edge
      rw [hundefined, Status.not_canBecome_undefined] at hedge
      cases hedge

theorem Sound.reward_lt_accepted (h : s.Sound) (haccepts : s.Accepts authority sender now m e)
    {i : TaskId} {r : Reward} (hr : (s.commit e.writes).rewards.get? i = some r) :
    i < (s.commit e.writes).nextId := by
  rcases haccepts.reward_before hr with hold | ⟨t, ht, -⟩
  · exact UInt64.lt_of_lt_of_le (h.reward_lt hold) haccepts.nextId_le
  · exact h.task_lt_accepted haccepts ht

theorem Sound.settled_accepted (h : s.Sound) (haccepts : s.Accepts authority sender now m e)
    {i : TaskId} {r : Reward} (hr : (s.commit e.writes).rewards.get? i = some r) {t : Task}
    (ht : (s.commit e.writes).tasks.get? i = some t) : t.status.Settled := by
  rcases haccepts.reward_before hr with hold | ⟨u, hu, happroved⟩
  · exact ((h.spent hold).accepted haccepts).settled ht
  · rw [hu] at ht
    cases ht
    exact .inl happroved

theorem Sound.accepted (h : s.Sound) (haccepts : s.Accepts authority sender now m e) :
    Sound (s.commit e.writes) where
  blank hnone := absurd hnone (h.params_ne_none haccepts)
  task_lt := h.task_lt_accepted haccepts
  reward_lt := h.reward_lt_accepted haccepts
  defined := h.defined_accepted haccepts
  settled hr ht := h.settled_accepted haccepts hr ht

end

theorem Sound.next {s : Store} (h : s.Sound) (event : Event) : Sound (s.next event) := by
  cases s.outcome event with
  | refused same =>
      rw [same]
      exact h
  | started _ blank _ sound later =>
      rw [later]
      exact h.started blank sound
  | accepted _ accepts later =>
      rw [later]
      exact h.accepted accepts

/-- Parameters are replaced, but never taken away. -/
theorem Sound.params_next {s : Store} (h : s.Sound) (hparams : s.params ≠ none) (event : Event) :
    (s.next event).params ≠ none := by
  cases s.outcome event with
  | refused same =>
      rw [same]
      exact hparams
  | started _ blank => exact absurd blank hparams
  | accepted _ accepts later =>
      rw [later]
      exact h.params_ne_none accepts

theorem Sound.nextId_le_next {s : Store} (h : s.Sound) (event : Event) :
    s.nextId ≤ (s.next event).nextId := by
  cases s.outcome event with
  | refused same => exact UInt64.le_of_eq (by rw [same])
  | started _ blank =>
      rw [h.blank blank]
      exact UInt64.zero_le
  | accepted _ accepts later =>
      rw [later]
      exact accepts.nextId_le

/-- Every event of a history finds a sound store, which may help to keep what it keeps. -/
theorem Sound.afterAll_induction {P : Store → Prop} {events : List Event} {s : Store}
    (h : s.Sound) (start : P s)
    (step : ∀ s, ∀ event ∈ events, s.Sound → P s → P (s.next event)) :
    P (s.afterAll events) := by
  refine (Store.afterAll_induction (P := fun s => s.Sound ∧ P s) ⟨h, start⟩ ?_).2
  rintro s event hmem ⟨hs, hkept⟩
  exact ⟨hs.next event, step s event hmem hs hkept⟩

/-- The same when each event stands to its store in a certain way. -/
theorem Sound.along_induction {P : Store → Event → Prop} {Q : Store → Prop} {events : List Event}
    {s : Store} (h : s.Sound) (start : Q s) (along : Along P s events)
    (step : ∀ s, ∀ event ∈ events, s.Sound → P s event → Q s → Q (s.next event)) :
    Q (s.afterAll events) := by
  induction events generalizing s with
  | nil => exact start
  | cons event rest ih =>
      have hnext := step s event List.mem_cons_self h along.1 start
      exact ih (h.next event) hnext along.2
        fun s later hlater => step s later (List.mem_cons_of_mem event hlater)

theorem Sound.nextId_le_afterAll {s : Store} (h : s.Sound) (events : List Event) :
    s.nextId ≤ (s.afterAll events).nextId := by
  refine h.afterAll_induction (P := fun u => s.nextId ≤ u.nextId) (UInt64.le_refl _) ?_
  intro u event _ hu hle
  exact UInt64.le_trans hle (hu.nextId_le_next event)

theorem Reachable.sound {s : Store} (h : Reachable s) : s.Sound := by
  induction h with
  | empty => exact sound_empty
  | next event _ ih => exact ih.next event

theorem sound_afterAll (events : List Event) : Sound (Store.empty.afterAll events) :=
  (Reachable.empty.afterAll events).sound

end Store

/-! ## A history to look at

One task that goes nearly every way there is: it is rejected, opened again
and claimed again before it is approved, then closed and deleted, and
another task is posted. -/

namespace Sample

def alice : String := "11111111111111111111111111111111"

def bob : String := "11111111111111111111111111111112"

def carol : String := "11111111111111111111111111111113"

theorem isText_alice : Address.IsText alice := by decide +kernel

theorem isText_bob : Address.IsText bob := by decide +kernel

theorem isText_carol : Address.IsText carol := by decide +kernel

def sent (sender : String) (m : Message) (now : Time) : Event :=
  .message alice sender m now

def bounty : Coin := ⟨⟨1500, by decide⟩, "stake"⟩

def evidence : Evidence := ⟨"Qm1", "ipfs", some "https://example.org/1", 6⟩

/-- The creator's revision that moves a task to a status, without a claimant. -/
def revision (status : Status) : Revision :=
  ⟨"Fix the pump", "It leaks.", bounty, status, none, none, none⟩

/-- A task is posted, and it ends up waiting for its second review. -/
def untilReview : List Event :=
  [.start Snapshot.default alice,
    sent alice (.create "Fix the pump" "It leaks." bounty) 5,
    sent bob (.claim 0) 6,
    sent bob (.submit 0 evidence) 7,
    sent alice (.reject 0 "It still leaks.") 8,
    sent alice (.update 0 (revision .opened)) 9,
    sent bob (.claim 0) 10,
    sent bob (.submit 0 evidence) 11]

theorem tasks_of_start {g : Snapshot} {authority : String}
    (h : .start g authority ∈ untilReview) : g.tasks = [] := by
  simp [untilReview, sent] at h
  rw [h.1]
  rfl

/-- The task while it waits for its second review. -/
def waiting : Task :=
  ⟨0, alice, "Fix the pump", "It leaks.", bounty, .submitted, some bob,
    some (.submitted evidence), none, 5, 11⟩

theorem task_untilReview : (Store.empty.afterAll untilReview).tasks.get? 0 = some waiting := by
  decide +kernel

/-- The board with this task and nothing else. -/
def waitingBoard : Store where
  tasks := Table.empty.insert waiting
  rewards := Table.empty
  params := some .default
  nextId := 1
  authority := some alice

theorem board_untilReview : Store.empty.afterAll untilReview = waitingBoard := by decide +kernel

def approval : Event := sent alice (.approve 0 "tx-1") 12

def closing : Event := sent alice (.update 0 (revision .closed)) 13

def afterApproval : List Event :=
  [closing,
    sent alice (.delete 0) 14,
    sent alice (.create "Paint the pump" "In green." bounty) 15]

/-- What somebody tries who has nothing to do with the task. -/
def intrusion : List Event :=
  [sent carol (.claim 0) 12,
    sent carol (.submit 0 evidence) 13,
    sent carol (.update 0 (revision .closed)) 14,
    sent carol (.approve 0 "tx-3") 15]

end Sample

end BountyBoard

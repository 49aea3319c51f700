import BountyBoard.Proofs.Walk

/-!
# Ids are never given out twice

The next id of a board counts. It starts at what the one snapshot says and
goes up by one with each task that is posted (`Sound.nextId_afterAll`);
nothing else moves it (`counts`). So the ids given out along a history ascend
(`Sound.pairwise_createdIds`), and each of them lies above the ids of all
tasks that were there before, whether they came with a snapshot or were
posted, and whether or not they are gone by now.

The last id of the range is never given out. A board whose next id is the
last one refuses every new task, so the count never starts over at zero.
-/

namespace BountyBoard

/-- The id that an answer gives out. -/
def Response.created? : Response → Option TaskId
  | created id => some id
  | _ => none

/-- The event is a message that asks for a new task. -/
inductive Event.Posts : Event → Prop
  | create {authority sender title description : String} {bounty : Coin} {now : Time} :
      Posts (.message authority sender (.create title description bounty) now)

namespace Store

/-! ## One event -/

/-- The id that an event is answered with, if it posts a task. -/
def createdId? (s : Store) (event : Event) : Option TaskId :=
  (s.answer? event).bind Response.created?

/-- The snapshot that an event puts in. One that is refused is not put in. -/
def imported? (s : Store) : Event → Option Snapshot
  | .start g authority =>
    match s.initialise g authority with
    | .ok _ => some g
    | .error _ => none
  | .message .. => none

/-- What an event does to the next id. -/
inductive Counts (s : Store) (event : Event) : Prop
  | stays
      (refused : event.Posts → s.answer? event = none)
      (step : (s.next event).nextId = s.nextId)
      (created : s.createdId? event = none)
      (imported : s.imported? event = none)
  | posts
      (message : event.Posts)
      (step : (s.next event).nextId.toNat = s.nextId.toNat + 1)
      (created : s.createdId? event = some s.nextId)
      (imported : s.imported? event = none)
      (initialised : s.params ≠ none)
  | starts {g : Snapshot} {authority : String}
      (start : event = .start g authority)
      (step : (s.next event).nextId = g.nextId)
      (created : s.createdId? event = none)
      (imported : s.imported? event = some g)
      (blank : s.params = none)
      (initialised : (s.next event).params ≠ none)
      (sound : g.Sound)

theorem Accepts.counts {s : Store} {authority sender : String} {m : Message} {now : Time}
    {e : Effect} (h : s.Accepts authority sender now m e) :
    s.Counts (.message authority sender m now) := by
  have hnext : s.next (.message authority sender m now) = s.commit e.writes := after_eq h
  have hcreated : s.createdId? (.message authority sender m now) = e.response.created? := by
    rw [createdId?, answer?_eq_some.mpr ⟨e, h, rfl⟩]
    rfl
  cases h with
  | create _ params _ room =>
      refine .posts .create ?_ hcreated rfl fun hnone => by cases params.symm.trans hnone
      rw [hnext]
      exact toNat_add_one room
  | _ => exact .stays nofun (by rw [hnext]; rfl) hcreated rfl

theorem counts (s : Store) (event : Event) : s.Counts event := by
  cases event with
  | start g authority =>
      cases hinit : s.initialise g authority with
      | error refusal =>
          exact .stays nofun (by rw [next_start_refused hinit]) rfl (by rw [imported?, hinit])
      | ok later =>
          obtain ⟨hblank, -, hsound, rfl⟩ := initialise_eq_ok.mp hinit
          have hnext := next_started hinit
          refine .starts rfl (by rw [hnext]; rfl) rfl (by rw [imported?, hinit]) hblank ?_ hsound
          rw [hnext]
          exact Option.some_ne_none _
  | message authority sender m now =>
      cases heffect : s.effect authority sender m now with
      | error refusal =>
          have hanswer := answer?_refused heffect
          refine .stays (fun _ => hanswer) (by rw [next_refused heffect]) ?_ rfl
          rw [createdId?, hanswer]
          rfl
      | ok e => exact (effect_eq_ok.mp heffect).counts

theorem of_createdId? {s : Store} {event : Event} {id : TaskId}
    (h : s.createdId? event = some id) :
    id = s.nextId ∧ (s.next event).nextId.toNat = id.toNat + 1 := by
  cases s.counts event with
  | stays _ _ created => cases created.symm.trans h
  | posts _ step created =>
      cases created.symm.trans h
      exact ⟨rfl, step⟩
  | starts _ _ created => cases created.symm.trans h

/-! ## Histories -/

/-- The ids given out along a history, in their order. -/
def createdIds (s : Store) (events : List Event) : List TaskId :=
  (s.answers events).filterMap Response.created?

theorem createdIds_cons (s : Store) (event : Event) (rest : List Event) :
    s.createdIds (event :: rest)
      = (s.createdId? event).toList ++ (s.next event).createdIds rest :=
  filterMap_answers_cons Response.created? s event rest

/-- The snapshots put in along a history, in their order. -/
def imports (s : Store) : List Event → List Snapshot
  | [] => []
  | event :: rest => (s.imported? event).toList ++ (s.next event).imports rest

/-- After the first snapshot no other is put in. -/
theorem Sound.imports_eq_nil {s : Store} (hs : s.Sound) (h : s.params ≠ none)
    (events : List Event) : s.imports events = [] := by
  induction events generalizing s with
  | nil => rfl
  | cons event rest ih =>
      have hrest := ih (hs.next event) (hs.params_next h event)
      rw [imports, hrest]
      cases s.counts event with
      | stays _ _ _ imported => rw [imported]; rfl
      | posts _ _ _ imported => rw [imported]; rfl
      | starts _ _ _ _ blank => exact absurd blank h

theorem Sound.length_imports_le {s : Store} (hs : s.Sound) (events : List Event) :
    (s.imports events).length ≤ 1 := by
  induction events generalizing s with
  | nil => exact Nat.zero_le 1
  | cons event rest ih =>
      rw [imports]
      cases s.counts event with
      | stays _ _ _ imported =>
          rw [imported]
          exact ih (hs.next event)
      | posts _ _ _ imported =>
          rw [imported]
          exact ih (hs.next event)
      | starts _ _ _ imported _ initialised =>
          rw [imported, (hs.next event).imports_eq_nil initialised]
          exact Nat.le_refl 1

/-- Where the count along a history begins: at the next id of the snapshot
that is put in, or at that of the store if none is. -/
def countStart (s : Store) (events : List Event) : TaskId :=
  (s.imports events).head?.elim s.nextId Snapshot.nextId

/-- The next id is the number of tasks posted so far, counted on from where
the count began. -/
theorem Sound.nextId_afterAll {s : Store} (hs : s.Sound) (events : List Event) :
    (s.afterAll events).nextId.toNat
      = (s.countStart events).toNat + (s.createdIds events).length := by
  induction events generalizing s with
  | nil => rfl
  | cons event rest ih =>
      have hrest : (s.afterAll (event :: rest)).nextId.toNat = _ := ih (hs.next event)
      rw [hrest, createdIds_cons, countStart, countStart, imports]
      cases s.counts event with
      | stays _ step created imported =>
          rw [step, created, imported]
          rfl
      | posts _ step created imported initialised =>
          -- A board that posts a task has been started, so no snapshot is still to come.
          have hnone := (hs.next event).imports_eq_nil (hs.params_next initialised event) rest
          rw [created, imported, hnone]
          simp only [List.head?_nil, Option.elim_none, Option.toList_some, Option.toList_none,
            List.append_nil, List.singleton_append, List.length_cons]
          omega
      | starts _ step created imported _ initialised =>
          rw [step, created, imported, (hs.next event).imports_eq_nil initialised rest]
          rfl

/-- An id that is given out was not used up before, and is afterwards. -/
theorem Sound.of_mem_createdIds {s : Store} (hs : s.Sound) {events : List Event} {id : TaskId}
    (h : id ∈ s.createdIds events) : s.nextId ≤ id ∧ id < (s.afterAll events).nextId := by
  induction events generalizing s with
  | nil => cases h
  | cons event rest ih =>
      rw [createdIds_cons, List.mem_append, Option.mem_toList] at h
      rcases h with h | h
      · obtain ⟨rfl, hstep⟩ := of_createdId? h
        refine ⟨UInt64.le_refl _, UInt64.lt_of_lt_of_le ?_ ((hs.next event).nextId_le_afterAll rest)⟩
        rw [UInt64.lt_iff_toNat_lt, hstep]
        exact Nat.lt_succ_self _
      · obtain ⟨hle, hlt⟩ := ih (hs.next event) h
        exact ⟨UInt64.le_trans (hs.nextId_le_next event) hle, hlt⟩

theorem Sound.pairwise_createdIds {s : Store} (hs : s.Sound) (events : List Event) :
    (s.createdIds events).Pairwise (· < ·) := by
  induction events generalizing s with
  | nil => exact .nil
  | cons event rest ih =>
      rw [createdIds_cons]
      cases hcreated : s.createdId? event with
      | none => exact ih (hs.next event)
      | some id =>
          obtain ⟨-, hstep⟩ := of_createdId? hcreated
          refine List.pairwise_cons.mpr ⟨fun later hlater => ?_, ih (hs.next event)⟩
          have hle := UInt64.le_iff_toNat_le.mp ((hs.next event).of_mem_createdIds hlater).1
          rw [UInt64.lt_iff_toNat_lt]
          omega

/-- The tasks of a snapshot have ids below all those that are given out,
because nothing is posted before the snapshot. -/
theorem Sound.imported_lt_created {s : Store} (hs : s.Sound) {events : List Event} {g : Snapshot}
    (hg : g ∈ s.imports events) {t : Task} (ht : t ∈ g.tasks) {id : TaskId}
    (hid : id ∈ s.createdIds events) : t.id < id := by
  induction events generalizing s with
  | nil => cases hg
  | cons event rest ih =>
      rw [imports, List.mem_append, Option.mem_toList] at hg
      rw [createdIds_cons, List.mem_append, Option.mem_toList] at hid
      cases s.counts event with
      | stays _ _ created imported =>
          rw [imported] at hg
          rw [created] at hid
          exact ih (hs.next event) (hg.resolve_left nofun) (hid.resolve_left nofun)
      | posts _ _ _ imported initialised =>
          have hparams := hs.params_next initialised event
          rw [imported, (hs.next event).imports_eq_nil hparams] at hg
          rcases hg with hg | hg <;> cases hg
      | starts _ step created imported _ initialised sound =>
          rw [imported, (hs.next event).imports_eq_nil initialised] at hg
          rw [created] at hid
          obtain rfl := Option.some.inj (hg.resolve_right List.not_mem_nil)
          have hle := ((hs.next event).of_mem_createdIds (hid.resolve_left nofun)).1
          rw [step] at hle
          exact UInt64.lt_of_lt_of_le (sound.below t ht) hle

/-- A board that has come to the last id of its range posts no more tasks. -/
theorem create_exhausted {s : Store} (h : s.nextId.toNat = UInt64.size - 1)
    (authority sender title description : String) (bounty : Coin) (now : Time) :
    ∃ refusal, s.apply authority sender (.create title description bounty) now
      = .error refusal := by
  cases happly : s.apply authority sender (.create title description bounty) now with
  | error refusal => exact ⟨refusal, rfl⟩
  | ok later =>
      obtain ⟨e, haccepts, -, -⟩ := apply_eq_ok.mp happly
      have hroom := haccepts.nextId_create.1
      rw [h] at hroom
      exact absurd hroom (Nat.lt_irrefl _)

/-- Along every history the next id counts the tasks that are posted, from
where the one snapshot stood. The ids given out ascend, stay below the last
id of the range, and lie above the ids of the snapshot and of every task that
was there at any time before. A board at the last id of the range refuses
each new task and stays as it is. -/
theorem fresh_ids :
    (∀ (before : List Event) (event : Event),
      (empty.afterAll before).Counts event
        ∧ (empty.afterAll before).nextId ≤ ((empty.afterAll before).next event).nextId)
    ∧ (∀ events : List Event,
      (empty.imports events).length ≤ 1
        ∧ (empty.afterAll events).nextId.toNat
          = (empty.countStart events).toNat + (empty.createdIds events).length
        ∧ (empty.createdIds events).Pairwise (· < ·)
        ∧ ∀ id ∈ empty.createdIds events,
          id.toNat < UInt64.size - 1 ∧ ∀ g ∈ empty.imports events, ∀ t ∈ g.tasks, t.id < id)
    ∧ (∀ before later : List Event, ∀ id ∈ (empty.afterAll before).createdIds later,
      ∀ t ∈ (empty.afterAll before).tasks.rows, t.id < id)
    ∧ ∀ s : Store, s.nextId.toNat = UInt64.size - 1 →
      ∀ (authority sender title description : String) (bounty : Coin) (now : Time),
        (∃ refusal, s.apply authority sender (.create title description bounty) now
          = .error refusal)
        ∧ s.after authority sender (.create title description bounty) now = s := by
  refine ⟨?_, ?_, ?_, ?_⟩
  · intro before event
    exact ⟨counts _ event, (sound_afterAll before).nextId_le_next event⟩
  · intro events
    refine ⟨sound_empty.length_imports_le events, sound_empty.nextId_afterAll events,
      sound_empty.pairwise_createdIds events, fun id hid => ⟨?_, ?_⟩⟩
    · have hlt := UInt64.lt_iff_toNat_lt.mp (sound_empty.of_mem_createdIds hid).2
      exact Nat.lt_of_lt_of_le hlt (Nat.le_sub_one_of_lt (UInt64.toNat_lt_size _))
    · exact fun g hg t ht => sound_empty.imported_lt_created hg ht hid
  · intro before later id hid t hmem
    have hused := (sound_afterAll before).task_lt (Table.get?_of_mem hmem)
    exact UInt64.lt_of_lt_of_le hused ((sound_afterAll before).of_mem_createdIds hid).1
  · intro s hs authority sender title description bounty now
    obtain ⟨refusal, hrefusal⟩ :=
      create_exhausted hs authority sender title description bounty now
    refine ⟨⟨refusal, hrefusal⟩, ?_⟩
    rw [after, hrefusal]

end Store

namespace Sample

/-- A board that starts with the last id of the range. -/
def atTheEnd : List Event :=
  [.start { Snapshot.default with nextId := 18446744073709551615 } alice]

end Sample

namespace Store

/-- In the sample history the id of the second task lies above the first
task, which is deleted before. A board at the end of its ids posts nothing. -/
theorem fresh_ids_sample :
    1 ∈ (empty.afterAll Sample.untilReview).createdIds (Sample.approval :: Sample.afterApproval)
    ∧ Sample.waiting ∈ (empty.afterAll Sample.untilReview).tasks.rows
    ∧ Sample.waiting.id < 1
    ∧ (empty.afterAll Sample.atTheEnd).after Sample.alice Sample.bob
        (.create "Fix the pump" "It leaks." Sample.bounty) 5 = empty.afterAll Sample.atTheEnd := by
  have hid : 1 ∈ (empty.afterAll Sample.untilReview).createdIds
      (Sample.approval :: Sample.afterApproval) := by decide +kernel
  have hmem : Sample.waiting ∈ (empty.afterAll Sample.untilReview).tasks.rows := by decide +kernel
  have hend : (empty.afterAll Sample.atTheEnd).nextId.toNat = UInt64.size - 1 := by decide +kernel
  exact ⟨hid, hmem, fresh_ids.2.2.1 _ _ 1 hid _ hmem, (fresh_ids.2.2.2 _ hend ..).2⟩

end Store

end BountyBoard

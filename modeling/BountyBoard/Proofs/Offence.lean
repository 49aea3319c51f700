import BountyBoard.Proofs.Diagnosis
import BountyBoard.Proofs.Snapshot

/-!
# What a snapshot is refused for

The tasks of a snapshot are looked over in the order of the list, and each
can offend in three ways: it repeats the id of a task before it, its id is
not below the next one, or it breaks a rule of its own. The first task that
offends is the one that is reported, for the first of its offences
(`check_eq_error`).

Which task that is depends on the order: of two tasks with one id, the
second repeats the first. Whether there is one does not, since the tasks
without any offence are those of a sound snapshot, in any order
(`sound_of_perm`).
-/

namespace BountyBoard.Snapshot

/-! ## Offences -/

/-- What a task does wrong that stands behind the tasks `front`. Its id is
looked at before the task itself. -/
inductive Offends (g : Snapshot) (front : List Task) (t : Task) : SnapshotFault → Prop where
  | repeated (h : ∃ u ∈ front, u.id = t.id) : Offends g front t (.duplicateId t.id)
  | pastCount (hnew : ¬∃ u ∈ front, u.id = t.id) (h : g.nextId ≤ t.id) :
      Offends g front t (.idPastCount t.id g.nextId)
  | broken (hnew : ¬∃ u ∈ front, u.id = t.id) (hbelow : t.id < g.nextId) {fault : Task.Fault}
      (h : t.fault? g.params = some fault) : Offends g front t (.badTask t.id fault)

/-- The task stands behind the tasks `front` in the list, and it is the
first one that offends. -/
structure FirstOffends (g : Snapshot) (front : List Task) (t : Task) (fault : SnapshotFault) :
    Prop where
  listed : ∃ rest, g.tasks = front ++ t :: rest
  offends : g.Offends front t fault
  first : ∀ before u after, front = before ++ u :: after → ∀ other, ¬g.Offends before u other

variable {g : Snapshot} {front : List Task} {t : Task} {fault : SnapshotFault}

/-- The reported text names the task. -/
theorem Offends.message (h : g.Offends front t fault) :
    ∃ before after, fault.message = before ++ Text.natural t.id.toNat ++ after := by
  cases h with
  | repeated => exact ⟨"duplicated id for task: ", "", String.append_empty.symm⟩
  | pastCount => exact ⟨"task id ", _, String.append_assoc⟩
  | broken => exact ⟨"task ", _, String.append_assoc⟩

/-! ## The check -/

theorem taskFault?_eq_some {seen : List TaskId}
    (hseen : ∀ id, id ∈ seen ↔ ∃ u ∈ front, u.id = id) :
    g.taskFault? seen t = some fault ↔ g.Offends front t fault := by
  rw [taskFault?]
  split
  · rename_i hmem
    rw [List.contains_iff_mem, hseen] at hmem
    constructor
    · rintro ⟨⟩
      exact .repeated hmem
    · rintro (_ | hnew | hnew)
      · rfl
      · exact absurd hmem hnew
      · exact absurd hmem hnew
  · rename_i hnew
    rw [List.contains_iff_mem, hseen] at hnew
    split
    · rename_i hpast
      constructor
      · rintro ⟨⟩
        exact .pastCount hnew hpast
      · rintro (hmem | _ | ⟨-, hbelow⟩)
        · exact absurd hmem hnew
        · rfl
        · exact absurd hpast (UInt64.not_le.mpr hbelow)
    · rename_i hbelow
      rw [Option.map_eq_some_iff]
      constructor
      · rintro ⟨_, hfault, rfl⟩
        exact .broken hnew (UInt64.not_le.mp hbelow) hfault
      · rintro (hmem | ⟨-, hpast⟩ | ⟨-, -, hfault⟩)
        · exact absurd hmem hnew
        · exact absurd hpast hbelow
        · exact ⟨_, hfault, rfl⟩

/-- The loop over the tasks: behind those in `front`, whose ids have been
seen, the first task that offends is the one that is reported. -/
theorem tasksFault?_eq_some {seen : List TaskId} {ts : List Task}
    (hseen : ∀ id, id ∈ seen ↔ ∃ u ∈ front, u.id = id) :
    g.tasksFault? seen ts = some fault
      ↔ ∃ more t rest, ts = more ++ t :: rest ∧ g.Offends (front ++ more) t fault
        ∧ ∀ before u after, more = before ++ u :: after →
          ∀ other, ¬g.Offends (front ++ before) u other := by
  induction ts generalizing seen front with
  | nil => simp [tasksFault?]
  | cons t rest ih =>
      have hnone : g.taskFault? seen t = none ↔ ∀ other, ¬g.Offends front t other := by
        rw [Option.eq_none_iff_forall_ne_some]
        exact forall_congr' fun other => not_congr (taskFault?_eq_some hseen)
      have hseen' : ∀ id, id ∈ t.id :: seen ↔ ∃ u ∈ front ++ [t], u.id = id := by
        intro id
        simp [hseen, or_and_right, exists_or, or_comm, eq_comm]
      rw [tasksFault?, Option.or_eq_some_iff, taskFault?_eq_some hseen, hnone, ih hseen']
      simp only [List.append_assoc, List.singleton_append]
      constructor
      · rintro (hoffends | ⟨hclean, more, u, rest, rfl, hoffends, hfirst⟩)
        · exact ⟨[], t, rest, rfl, by rwa [List.append_nil], by simp⟩
        · refine ⟨t :: more, u, rest, rfl, hoffends, ?_⟩
          intro before v after hsplit
          rcases List.cons_eq_append_iff.mp hsplit with ⟨rfl, hv⟩ | ⟨before, rfl, hmore⟩
          · obtain ⟨rfl, rfl⟩ := List.cons.inj hv
            rwa [List.append_nil]
          · exact hfirst before v after hmore
      · rintro ⟨more, u, rest', hsplit, hoffends, hfirst⟩
        rcases List.cons_eq_append_iff.mp hsplit with ⟨rfl, hu⟩ | ⟨more, rfl, hrest⟩
        · obtain ⟨rfl, rfl⟩ := List.cons.inj hu
          rw [List.append_nil] at hoffends
          exact .inl hoffends
        · refine .inr ⟨?_, more, u, rest', hrest, hoffends, ?_⟩
          · simpa using hfirst [] t more rfl
          · intro before v after hmore
            exact hfirst (t :: before) v after (by rw [hmore]; rfl)

theorem check_of_params {reason : Params.Fault} (h : g.params.fault? = some reason) :
    g.check = .error (.badParams reason) := by
  rw [check, h]
  rfl

theorem check_eq_error (hparams : g.params.fault? = none) {refusal : Refusal} :
    g.check = .error refusal
      ↔ ∃ front t fault, g.FirstOffends front t fault ∧ refusal = .badSnapshot fault := by
  have hnoneSeen : ∀ id, id ∈ ([] : List TaskId) ↔ ∃ u ∈ ([] : List Task), u.id = id := by simp
  have hcheck : g.check = refuseIf (g.tasksFault? [] g.tasks) Refusal.badSnapshot := by
    rw [check, hparams]
    rfl
  rw [hcheck, refuseIf_eq_error]
  simp only [tasksFault?_eq_some hnoneSeen, List.nil_append]
  constructor
  · rintro ⟨fault, ⟨front, t, rest, hlisted, hoffends, hfirst⟩, rfl⟩
    exact ⟨front, t, fault, ⟨⟨rest, hlisted⟩, hoffends, hfirst⟩, rfl⟩
  · rintro ⟨front, t, fault, ⟨⟨rest, hlisted⟩, hoffends, hfirst⟩, rfl⟩
    exact ⟨fault, ⟨front, t, rest, hlisted, hoffends, hfirst⟩, rfl⟩

theorem sound_of_perm {tasks : List Task} (hperm : tasks.Perm g.tasks) (h : g.Sound) :
    { g with tasks := tasks }.Sound where
  params := h.params
  distinct := (hperm.map Task.id).nodup_iff.mpr h.distinct
  below := fun t ht => h.below t (hperm.mem_iff.mp ht)
  valid := fun t ht => h.valid t (hperm.mem_iff.mp ht)

/-- The snapshots that pass their check are the sound ones, whatever the
order of their tasks is. With parameters in order, any other snapshot is
refused for the first of its tasks that offends, and the text of the refusal
names this task. -/
theorem checked_in_order (g : Snapshot) :
    (g.check = .ok ()
      ↔ g.params.fault? = none ∧ (g.tasks.map Task.id).Nodup
        ∧ (∀ t ∈ g.tasks, t.id < g.nextId) ∧ ∀ t ∈ g.tasks, t.fault? g.params = none)
    ∧ (∀ tasks, tasks.Perm g.tasks →
      ({ g with tasks := tasks }.check = .ok () ↔ g.check = .ok ()))
    ∧ (∀ reason, g.params.fault? = some reason → g.check = .error (.badParams reason))
    ∧ (g.params.fault? = none →
      (g.check ≠ .ok () → ∃ front t fault, g.FirstOffends front t fault)
      ∧ ∀ front t fault, g.FirstOffends front t fault →
        g.check = .error (.badSnapshot fault)
        ∧ ∃ before after, (Refusal.badSnapshot fault).message
          = "invalid genesis: " ++ (before ++ Text.natural t.id.toNat ++ after)) := by
  refine ⟨?_, ?_, fun _ => check_of_params, fun hparams => ⟨fun hbad => ?_, ?_⟩⟩
  · rw [check_eq_ok]
    exact ⟨fun h => ⟨h.params, h.distinct, h.below, h.valid⟩,
      fun ⟨hparams, hdistinct, hbelow, hvalid⟩ => ⟨hparams, hdistinct, hbelow, hvalid⟩⟩
  · intro tasks hperm
    rw [check_eq_ok, check_eq_ok]
    exact ⟨sound_of_perm (g := { g with tasks := tasks }) hperm.symm, sound_of_perm hperm⟩
  · cases hcheck : g.check with
    | ok => exact absurd hcheck hbad
    | error refusal =>
        obtain ⟨front, t, fault, hfirst, -⟩ := (check_eq_error hparams).mp hcheck
        exact ⟨front, t, fault, hfirst⟩
  · intro front t fault hfirst
    refine ⟨(check_eq_error hparams).mpr ⟨front, t, fault, hfirst, rfl⟩, ?_⟩
    obtain ⟨before, after, hmessage⟩ := hfirst.offends.message
    exact ⟨before, after, congrArg ("invalid genesis: " ++ ·) hmessage⟩

end BountyBoard.Snapshot

namespace BountyBoard

namespace Sample

/-- A snapshot whose second task has too high an id, and whose third repeats the first. -/
def miscounted : Snapshot where
  params := Params.default
  tasks := [waiting, { waiting with id := 9 }, waiting]
  nextId := 7

theorem first_miscounted :
    miscounted.FirstOffends [waiting] { waiting with id := 9 } (.idPastCount 9 7) where
  listed := ⟨[waiting], rfl⟩
  offends := .pastCount (by decide) (by decide)
  first := by
    intro before u after hsplit other hoffends
    rcases List.cons_eq_append_iff.mp hsplit with ⟨rfl, hu⟩ | ⟨before, rfl, hempty⟩
    · obtain ⟨rfl, -⟩ := List.cons.inj hu
      cases hoffends with
      | repeated h => simp at h
      | pastCount _ h => exact absurd h (by decide)
      | broken _ _ h => cases valid_waiting.symm.trans h
    · simp at hempty

end Sample

namespace Snapshot

/-- The second task is reported, and no other order helps. Without the tasks
behind the first the snapshot passes. -/
theorem checked_in_order_sample :
    Sample.miscounted.check = .error (.badSnapshot (.idPastCount 9 7))
    ∧ { Sample.miscounted with tasks := Sample.miscounted.tasks.reverse }.check ≠ .ok ()
    ∧ { Sample.miscounted with tasks := [Sample.waiting] }.check = .ok () := by
  obtain ⟨-, hperm, -, hrefused⟩ := checked_in_order Sample.miscounted
  have hcheck := ((hrefused (by decide)).2 _ _ _ Sample.first_miscounted).1
  refine ⟨hcheck, fun h => ?_, ?_⟩
  · cases hcheck.symm.trans ((hperm _ (List.reverse_perm _)).mp h)
  · refine (checked_in_order { Sample.miscounted with tasks := [Sample.waiting] }).1.mpr ?_
    exact ⟨by decide, by decide, by decide, List.forall_mem_singleton.mpr Sample.valid_waiting⟩

end Snapshot

end BountyBoard

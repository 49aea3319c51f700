import BountyBoard.Proofs.Migration

/-!
# What a snapshot brings in

A snapshot is put in row by row, and a row that comes later stands in the
place of an earlier one with its id. That no task is lost on the way is the
work of the check: it lets no id through twice, so each row finds its place
empty (`Table.rows_foldl_insert_perm`). What an empty store was started with
can be taken out of it again, with the tasks in the order of their ids
(`import_faithful`).
-/

namespace BountyBoard.Store

/-- The snapshot of a store that was started with a sound one. Only the
order of the tasks can be another. -/
theorem snapshot_started {g : Snapshot} (hg : g.Sound) (authority : String) :
    ∃ exported, (empty.commit (g.writes authority)).snapshot = .ok exported
      ∧ exported.params = g.params ∧ exported.nextId = g.nextId
      ∧ exported.tasks.Perm g.tasks
      ∧ exported.tasks.Pairwise fun t u => t.id < u.id := by
  have hparams : (empty.commit (g.writes authority)).params = some g.params := rfl
  have hrows : (empty.commit (g.writes authority)).tasks.rows.Perm (g.tasks ++ []) :=
    Table.rows_foldl_insert_perm hg.distinct fun _ _ => rfl
  rw [List.append_nil] at hrows
  exact ⟨_, snapshot_of_params hparams, rfl, rfl, hrows, Table.ascending _⟩

/-- Tasks that stand in the order of their ids come out as they went in. -/
theorem snapshot_started_of_ascending {g : Snapshot}
    (hascending : g.tasks.Pairwise fun t u => t.id < u.id) (authority : String) :
    (empty.commit (g.writes authority)).snapshot = .ok g := by
  have htasks : (empty.commit (g.writes authority)).tasks = ⟨g.tasks, hascending⟩ :=
    Table.foldl_insert_rows ⟨g.tasks, hascending⟩
  exact snapshot_eq_ok.mpr ⟨rfl, by rw [htasks], rfl⟩

/-- An empty store takes a snapshot exactly when the authority is an address
and the snapshot passes its check. It then gives back the same parameters and
next id, and the same tasks in ascending order of ids, which is the snapshot
itself if its tasks were in that order. Rewards there are none, and the
authority is the given one. A snapshot that is refused changes no store. -/
theorem import_faithful :
    (∀ (g : Snapshot) (authority : String),
      ((∃ s, empty.initialise g authority = .ok s)
        ↔ Address.IsText authority ∧ g.check = .ok ())
      ∧ ∀ s, empty.initialise g authority = .ok s →
        (∃ exported, s.snapshot = .ok exported
          ∧ exported.params = g.params ∧ exported.nextId = g.nextId
          ∧ exported.tasks.Perm g.tasks
          ∧ (exported.tasks.Pairwise fun t u => t.id < u.id)
          ∧ ((g.tasks.Pairwise fun t u => t.id < u.id) → exported = g))
        ∧ s.rewards.rows = [] ∧ s.authority = some authority)
    ∧ ∀ (s : Store) (g : Snapshot) (authority : String) (refusal : Refusal),
      s.initialise g authority = .error refusal → s.next (.start g authority) = s := by
  refine ⟨?_, fun s g authority refusal => next_start_refused⟩
  intro g authority
  constructor
  · rw [exists_initialise_iff, Snapshot.check_eq_ok]
    exact and_iff_right rfl
  · intro s hinit
    obtain ⟨-, -, hsound, rfl⟩ := initialise_eq_ok.mp hinit
    obtain ⟨exported, hexported, hparams, hnext, hperm, hascending⟩ :=
      snapshot_started hsound authority
    refine ⟨⟨exported, hexported, hparams, hnext, hperm, hascending, ?_⟩, rfl, rfl⟩
    intro hordered
    have hsame := hexported.symm.trans (snapshot_started_of_ascending hordered authority)
    exact Except.ok.inj hsame

end BountyBoard.Store

namespace BountyBoard

namespace Sample

/-- A snapshot with its two tasks in descending order. -/
def descending : Snapshot where
  params := Params.default
  tasks := [{ waiting with id := 4 }, waiting]
  nextId := 7

end Sample

namespace Store

/-- The two tasks of the sample snapshot come out in ascending order, and a
second snapshot changes nothing. -/
theorem import_faithful_sample :
    ∃ s, empty.initialise Sample.descending Sample.bob = .ok s
      ∧ (∃ exported, s.snapshot = .ok exported
        ∧ exported.tasks = [Sample.waiting, { Sample.waiting with id := 4 }]
        ∧ exported.tasks.Perm Sample.descending.tasks)
      ∧ s.authority = some Sample.bob
      ∧ s.next (.start .default Sample.alice) = s := by
  obtain ⟨s, hinit⟩ := (import_faithful.1 Sample.descending Sample.bob).1.mpr
    ⟨Sample.isText_bob, by decide +kernel⟩
  obtain ⟨⟨exported, hexported, -, -, hperm, -, -⟩, -, hauthority⟩ :=
    (import_faithful.1 Sample.descending Sample.bob).2 s hinit
  obtain ⟨-, -, -, rfl⟩ := initialise_eq_ok.mp hinit
  have hrefused : (empty.commit (Sample.descending.writes Sample.bob)).initialise .default
      Sample.alice = .error (.badSnapshot .alreadyInitialised) := by decide +kernel
  refine ⟨_, hinit, ⟨exported, hexported, ?_, hperm⟩, hauthority, ?_⟩
  · obtain ⟨-, htasks, -⟩ := snapshot_eq_ok.mp hexported
    rw [htasks]
    decide +kernel
  · exact import_faithful.2 _ _ _ _ hrefused

end Store

end BountyBoard

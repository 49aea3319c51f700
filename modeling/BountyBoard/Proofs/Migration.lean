import BountyBoard.Proofs.Encoding
import BountyBoard.Proofs.Governance
import BountyBoard.Proofs.StoredTasks

/-!
# Moving a board

A board moves when its snapshot is written down, read back elsewhere and put
into an empty store. On the way nothing is lost: the text gives the snapshot
back (`Snapshot.ofText_text`), and the rows make the same table again. What
can fail is the look at the tasks on arrival. It is the same look as ever,
under the parameters that are stored, and a board keeps tasks that were
posted under other parameters. So a board moves exactly when each of its
tasks fits the parameters of today (`migrate_eq_ok`); everything else that is
looked at, a stored board upholds by itself.

A board whose limits were only ever widened can always move. One whose
limits were narrowed may not, until the tasks outside them are gone or
revised (`narrowed_stays`).
-/

namespace BountyBoard

namespace Store

/-- The store that the board is taken to: its snapshot goes through the
written form into an empty store. -/
def migrate (s : Store) (authority : String) : Except Refusal Store := do
  let g ← s.snapshot
  let arrived ← Snapshot.ofText g.text
  empty.initialise arrived authority

theorem snapshot_eq_ok {s : Store} {g : Snapshot} :
    s.snapshot = .ok g
      ↔ s.params = some g.params ∧ g.tasks = s.tasks.rows ∧ g.nextId = s.nextId := by
  simp only [snapshot, bind_eq_ok, pure_eq_ok, requireParams_eq_ok]
  constructor
  · rintro ⟨p, hp, rfl⟩
    exact ⟨hp, rfl, rfl⟩
  · rintro ⟨hp, htasks, hnext⟩
    exact ⟨g.params, hp, by rw [← htasks, ← hnext]⟩

theorem snapshot_of_params {s : Store} {p : Params} (hp : s.params = some p) :
    s.snapshot = .ok ⟨p, s.tasks.rows, s.nextId⟩ :=
  snapshot_eq_ok.mpr ⟨hp, rfl, rfl⟩

/-- The text on the way changes nothing. -/
theorem migrate_eq_initialise {s : Store} {g : Snapshot} (h : s.snapshot = .ok g)
    (authority : String) : s.migrate authority = empty.initialise g authority := by
  simp only [migrate, h, Snapshot.ofText_text, bind, Except.bind]

/-- The snapshot of a stored board is in order as far as its tasks fit the parameters. -/
theorem snapshot_sound_iff (events : List Event) {g : Snapshot}
    (hg : (empty.afterAll events).snapshot = .ok g) :
    g.Sound ↔ ∀ t ∈ (empty.afterAll events).tasks.rows, t.Fits g.params := by
  obtain ⟨hp, htasks, hnext⟩ := snapshot_eq_ok.mp hg
  constructor
  · intro h t hmem
    exact (Task.valid_iff_fits.mp (h.valid t (htasks ▸ hmem))).2
  · intro h
    refine
      { params := params_sound_afterAll events hp
        distinct := ?_
        below := ?_
        valid := ?_ }
    · rw [htasks]
      exact Table.nodup_keys _
    · intro t hmem
      rw [htasks] at hmem
      rw [hnext]
      exact (sound_afterAll events).task_lt (Table.get?_of_mem hmem)
    · intro t hmem
      rw [htasks] at hmem
      exact Task.valid_iff_fits.mpr
        ⟨wellFormed_afterAll events (Table.get?_of_mem hmem), h t hmem⟩

/-- A snapshot put into an empty store makes the board that it was taken
from, without the rewards. -/
theorem commit_snapshot {s : Store} {g : Snapshot} (hg : s.snapshot = .ok g)
    (authority : String) :
    empty.commit (g.writes authority)
      = { s with rewards := Table.empty, authority := some authority } := by
  obtain ⟨hp, htasks, hnext⟩ := snapshot_eq_ok.mp hg
  simp only [commit, empty, Snapshot.writes, htasks, hnext, hp, Table.foldl_insert_rows,
    List.foldl_nil, Option.or, Option.getD_some]

theorem migrate_eq_ok (events : List Event) {p : Params}
    (hp : (empty.afterAll events).params = some p) {authority : String} {later : Store} :
    (empty.afterAll events).migrate authority = .ok later
      ↔ Address.IsText authority
        ∧ (∀ t ∈ (empty.afterAll events).tasks.rows, t.Fits p)
        ∧ later = { empty.afterAll events with
            rewards := Table.empty, authority := some authority } := by
  have hg := snapshot_of_params hp
  rw [migrate_eq_initialise hg, initialise_eq_ok, snapshot_sound_iff events hg, commit_snapshot hg]
  constructor
  · rintro ⟨-, haddress, hfits, rfl⟩
    exact ⟨haddress, hfits, rfl⟩
  · rintro ⟨haddress, hfits, rfl⟩
    exact ⟨rfl, haddress, hfits, rfl⟩

/-- A board with parameters has a snapshot, which its text gives back. It
moves to a valid authority exactly when all its tasks fit the parameters,
and then parameters, tasks and next id are the same. They do fit if the
limits were only ever widened. -/
theorem migration (events : List Event) (p : Params) (authority : String)
    (hp : (empty.afterAll events).params = some p) (hauthority : Address.IsText authority) :
    (∃ g, (empty.afterAll events).snapshot = .ok g ∧ Snapshot.ofText g.text = .ok g)
    ∧ ((∃ later, (empty.afterAll events).migrate authority = .ok later)
      ↔ ∀ t ∈ (empty.afterAll events).tasks.rows, t.Fits p)
    ∧ (∀ later, (empty.afterAll events).migrate authority = .ok later →
      later.params = some p ∧ later.tasks = (empty.afterAll events).tasks
        ∧ later.nextId = (empty.afterAll events).nextId)
    ∧ (Along Widens empty events →
      ∃ later, (empty.afterAll events).migrate authority = .ok later) := by
  have hmoves : (∃ later, (empty.afterAll events).migrate authority = .ok later)
      ↔ ∀ t ∈ (empty.afterAll events).tasks.rows, t.Fits p := by
    simp only [migrate_eq_ok events hp, hauthority, true_and, exists_and_left, exists_eq, and_true]
  refine ⟨⟨_, snapshot_of_params hp, Snapshot.ofText_text _⟩, hmoves, ?_, ?_⟩
  · intro later hlater
    obtain ⟨-, -, rfl⟩ := (migrate_eq_ok events hp).mp hlater
    exact ⟨hp, rfl, rfl⟩
  · intro hwide
    refine hmoves.mpr fun t hmem => ?_
    obtain ⟨q, hq, hvalid⟩ := upholds_afterAll hwide (Table.get?_of_mem hmem)
    rw [hp] at hq
    cases hq
    exact (Task.valid_iff_fits.mp hvalid).2

end Store

namespace Sample

/-- Parameters with a higher minimum. -/
def narrower : Params :=
  { Params.default with minBounty := ⟨⟨2000, by decide⟩, "stake"⟩ }

/-- A task is posted, and the minimum is raised above its bounty. -/
def narrowed : List Event :=
  [.start Snapshot.default alice,
    sent alice (.create "Fix the pump" "It leaks." bounty) 5,
    sent alice (.setParams narrower) 6]

end Sample

namespace Store

/-- The sample history under wider parameters can move. -/
theorem migration_sample :
    ∃ later, (empty.afterAll (Sample.untilReview ++ [Sample.widening])).migrate Sample.alice
        = .ok later
      ∧ later.tasks = (empty.afterAll (Sample.untilReview ++ [Sample.widening])).tasks := by
  have hp : (empty.afterAll (Sample.untilReview ++ [Sample.widening])).params
      = some Sample.wider := by decide +kernel
  have hwide : Along Widens empty (Sample.untilReview ++ [Sample.widening]) := by decide +kernel
  obtain ⟨-, -, hsame, hmoves⟩ := migration _ _ Sample.alice hp (by decide +kernel)
  obtain ⟨later, hlater⟩ := hmoves hwide
  exact ⟨later, hlater, (hsame later hlater).2.1⟩

/-- A task below the new minimum stays on the board, and the board stays where it is. -/
theorem narrowed_stays :
    (empty.afterAll Sample.narrowed).params = some Sample.narrower
    ∧ Address.IsText Sample.alice
    ∧ (empty.afterAll Sample.narrowed).migrate Sample.alice
      = .error (.badSnapshot (.badTask 0
          (.bountyBelowMin ⟨2000, by decide⟩ ⟨1500, by decide⟩))) := by
  have hp : (empty.afterAll Sample.narrowed).params = some Sample.narrower := by decide +kernel
  refine ⟨hp, by decide +kernel, ?_⟩
  rw [migrate_eq_initialise (snapshot_of_params hp)]
  decide +kernel

end Store

end BountyBoard

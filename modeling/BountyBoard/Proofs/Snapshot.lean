import BountyBoard.Proofs.Acceptance
import BountyBoard.Snapshot

/-!
# Which snapshots are accepted

A snapshot passes its check exactly when it is `Sound`: its parameters are
in order, no two of its tasks have the same id, every id lies below the next
one, and every task keeps the rules (`check_eq_ok`). The order of its tasks
plays no part. A sound snapshot is put in by anyone with an address, into a
store without parameters (`initialise_eq_ok`).
-/

namespace BountyBoard

namespace Snapshot

/-- A snapshot that a board can start from. -/
structure Sound (g : Snapshot) : Prop where
  params : g.params.fault? = none
  distinct : (g.tasks.map Task.id).Nodup
  below : ∀ t ∈ g.tasks, t.id < g.nextId
  valid : ∀ t ∈ g.tasks, t.Valid g.params

theorem taskFault?_eq_none {g : Snapshot} {seen : List TaskId} {t : Task} :
    g.taskFault? seen t = none ↔ t.id ∉ seen ∧ t.id < g.nextId ∧ t.Valid g.params := by
  rw [taskFault?, Task.Valid]
  split
  · rename_i hseen
    simp [List.contains_iff_mem.mp hseen]
  · rename_i hseen
    rw [List.contains_iff_mem] at hseen
    split
    · rename_i hpast
      simp [UInt64.not_lt.mpr hpast]
    · rename_i hbelow
      simp [hseen, UInt64.not_le.mp hbelow]

/-- No task is at fault exactly when each is in order by itself, and its id
is neither among those seen before nor among those of other tasks. -/
theorem tasksFault?_eq_none {g : Snapshot} {seen : List TaskId} {ts : List Task} :
    g.tasksFault? seen ts = none
      ↔ (∀ t ∈ ts, t.id ∉ seen ∧ t.id < g.nextId ∧ t.Valid g.params)
        ∧ (ts.map Task.id).Nodup := by
  induction ts generalizing seen with
  | nil => simp [tasksFault?]
  | cons t rest ih =>
      rw [tasksFault?, Option.or_eq_none_iff, taskFault?_eq_none, ih, List.map_cons,
        List.nodup_cons]
      constructor
      · rintro ⟨hfirst, hrest, hnodup⟩
        refine ⟨?_, ?_, hnodup⟩
        · intro u hu
          rcases List.mem_cons.mp hu with rfl | hu
          · exact hfirst
          · obtain ⟨hseen, hgood⟩ := hrest u hu
            exact ⟨fun h => hseen (List.mem_cons_of_mem _ h), hgood⟩
        · intro hmem
          obtain ⟨u, hu, heq⟩ := List.mem_map.mp hmem
          exact (hrest u hu).1 (heq ▸ List.mem_cons_self)
      · rintro ⟨hall, hnew, hnodup⟩
        refine ⟨hall t List.mem_cons_self, ?_, hnodup⟩
        intro u hu
        obtain ⟨hseen, hgood⟩ := hall u (List.mem_cons_of_mem _ hu)
        refine ⟨?_, hgood⟩
        intro h
        rcases List.mem_cons.mp h with heq | h
        · exact hnew (heq ▸ List.mem_map.mpr ⟨u, hu, rfl⟩)
        · exact hseen h

theorem check_eq_ok {g : Snapshot} {u : Unit} : g.check = .ok u ↔ g.Sound := by
  rw [check]
  simp only [bind_eq_ok, refuseIf_eq_ok, tasksFault?_eq_none]
  constructor
  · rintro ⟨_, hparams, hall, hnodup⟩
    exact ⟨hparams, hnodup, fun t ht => (hall t ht).2.1, fun t ht => (hall t ht).2.2⟩
  · intro h
    exact ⟨(), h.params, fun t ht => ⟨List.not_mem_nil, h.below t ht, h.valid t ht⟩, h.distinct⟩

/-- What a store is given when the snapshot is put in. -/
def writes (g : Snapshot) (authority : String) : Batch where
  tasks := g.tasks
  params := some g.params
  nextId := some g.nextId
  authority := some authority

end Snapshot

theorem Store.initialise_eq_ok {s next : Store} {g : Snapshot} {authority : String} :
    s.initialise g authority = .ok next
      ↔ s.params = none ∧ Address.IsText authority ∧ g.Sound
        ∧ s.commit (g.writes authority) = next := by
  simp only [initialise, bind_eq_ok, pure_eq_ok, ensure_eq_ok, mapError_eq_ok,
    Address.canonical_eq_ok, Snapshot.check_eq_ok]
  constructor
  · rintro ⟨_, hblank, _, ⟨haddress, rfl⟩, _, hsound, rfl⟩
    exact ⟨hblank, haddress, hsound, rfl⟩
  · rintro ⟨hblank, haddress, hsound, rfl⟩
    exact ⟨(), hblank, _, ⟨haddress, rfl⟩, (), hsound, rfl⟩

end BountyBoard

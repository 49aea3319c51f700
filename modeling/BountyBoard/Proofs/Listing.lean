import BountyBoard.Proofs.Commit
import BountyBoard.Proofs.Sort

/-!
# What a list of tasks shows

A list shows the stored tasks that meet the criteria (`mem_list`), each once
(`nodup_list`). The rows come from the table in ascending order of ids. To
select some of them does not disturb that order, and to sort them disturbs
it only where the keys differ. So the ids break the ties, and they ascend
also where the keys descend (`Sorts.pairwise`). The list is fixed by the
rows that are there, however they came to be there.
-/

namespace BountyBoard

/-! ## Criteria -/

/-- The task meets every criterion that is set. -/
structure Filter.Meets (f : Filter) (t : Task) : Prop where
  creator : ∀ who, f.creator = some who → t.creator = who
  claimant : ∀ who, f.claimant = some who → t.claimant = some who
  approver : ∀ who, f.approver = some who → t.approver = some who
  status : ∀ status, f.status = some status → status ≠ .undefined → t.status = status
  minBounty : f.minBounty.toNat ≠ 0 → f.minBounty ≤ t.bounty.amount
  maxBounty : f.maxBounty.toNat ≠ 0 → t.bounty.amount ≤ f.maxBounty

namespace Filter

theorem admits_iff {α : Type} [DecidableEq α] {wanted actual : Option α} :
    admits wanted actual = true ↔ ∀ a, wanted = some a → actual = some a := by
  cases wanted with
  | none => simp [admits]
  | some a => simp [admits]

theorem picks_iff {f : Filter} {t : Task} : f.picks t = true ↔ f.Meets t := by
  have hstatus : (f.status == some .undefined || admits f.status (some t.status)) = true
      ↔ ∀ status, f.status = some status → status ≠ .undefined → t.status = status := by
    cases f.status with
    | none => simp [admits]
    | some status => by_cases h : status = .undefined <;> simp [admits, h]
  simp only [picks, Bool.and_eq_true, hstatus, admits_iff, Option.some.injEq, Bool.or_eq_true,
    beq_iff_eq, decide_eq_true_eq, Decidable.or_iff_not_imp_left]
  constructor
  · rintro ⟨⟨⟨⟨⟨hcreator, hclaimant⟩, happrover⟩, hstatus⟩, hmin⟩, hmax⟩
    exact ⟨hcreator, hclaimant, happrover, hstatus, hmin, hmax⟩
  · rintro ⟨hcreator, hclaimant, happrover, hstatus, hmin, hmax⟩
    exact ⟨⟨⟨⟨⟨hcreator, hclaimant⟩, happrover⟩, hstatus⟩, hmin⟩, hmax⟩

end Filter

/-! ## Ties -/

section

variable {k : SortKey} {d : Direction}

theorem before_or_same {a b : Task} (h : ¬Before k d b a) : Before k d a b ∨ k.Same a b := by
  rw [← SortKey.rank_eq_iff]
  cases d <;> rw [Before, ← SortKey.rank_lt_iff] at h ⊢ <;> omega

/-- Tasks that came in ascending order of ids are in that order still where
the key does not tell them apart. -/
theorem Sorts.pairwise {ts out : List Task} (h : Sorts k d ts out)
    (hascending : ts.Pairwise fun a b => a.id < b.id) :
    out.Pairwise fun a b => Before k d a b ∨ k.Same a b ∧ a.id < b.id := by
  refine List.pairwise_iff_forall_sublist.mpr fun {a b} hsub => ?_
  have hordered := List.pairwise_iff_forall_sublist.mp h.ordered hsub
  refine (before_or_same hordered).imp_right fun hsame => ⟨hsame, ?_⟩
  have hself : k.Same a a := SortKey.rank_eq_iff.mp rfl
  have hclass : [a, b].Sublist (out.filter fun u => decide (k.Same a u)) := by
    simpa [hself, hsame] using hsub.filter fun u => decide (k.Same a u)
  rw [h.stable a] at hclass
  exact List.pairwise_iff_forall_sublist.mp hascending (hclass.trans List.filter_sublist)

end

/-! ## Lists of stored tasks -/

namespace Store

theorem list_some (s : Store) (f : Filter) (k : SortKey) (d : Direction) :
    Sorts k d (s.list f none) (s.list f (some (k, d))) :=
  sorts_sortTasks _

theorem list_perm (s : Store) (f : Filter) (order : Option (SortKey × Direction)) :
    (s.list f order).Perm (s.list f none) := by
  cases order with
  | none => exact List.Perm.refl _
  | some order => exact (list_some s f order.1 order.2).perm

theorem pairwise_list_none (s : Store) (f : Filter) :
    (s.list f none).Pairwise fun a b => a.id < b.id :=
  s.tasks.ascending.filter _

theorem mem_list {s : Store} {f : Filter} {order : Option (SortKey × Direction)} {t : Task} :
    t ∈ s.list f order ↔ s.tasks.get? t.id = some t ∧ f.Meets t := by
  rw [(s.list_perm f order).mem_iff, list, List.mem_filter, Filter.picks_iff,
    Table.mem_rows_iff]

theorem nodup_list (s : Store) (f : Filter) (order : Option (SortKey × Direction)) :
    (s.list f order).Nodup :=
  (s.list_perm f order).nodup_iff.mpr ((Table.lists_rows s.tasks).once.filter _)

/-- A list of tasks has the stored tasks that meet the criteria and no
others, each once, in ascending order of ids or in the order that is asked
for, and then the tasks of one key in ascending order of ids, whatever the
direction. Commits that lead to the same rows lead to the same lists. -/
theorem list_exact :
    (∀ (s : Store) (f : Filter) (order : Option (SortKey × Direction)),
      (∀ t, t ∈ s.list f order ↔ s.tasks.get? t.id = some t ∧ f.Meets t)
      ∧ (s.list f order).Nodup)
    ∧ (∀ (s : Store) (f : Filter), (s.list f none).Pairwise fun a b => a.id < b.id)
    ∧ (∀ (s : Store) (f : Filter) (k : SortKey) (d : Direction),
      (s.list f (some (k, d))).Pairwise fun a b =>
        Before k d a b ∨ k.Same a b ∧ a.id < b.id)
    ∧ ∀ history other : List Batch,
      (∀ id, (empty.commitAll history).tasks.get? id = (empty.commitAll other).tasks.get? id) →
      ∀ (f : Filter) (order : Option (SortKey × Direction)),
        (empty.commitAll history).list f order = (empty.commitAll other).list f order := by
  refine ⟨?_, pairwise_list_none, ?_, ?_⟩
  · exact fun s f order => ⟨fun _ => mem_list, s.nodup_list f order⟩
  · exact fun s f k d => (s.list_some f k d).pairwise (s.pairwise_list_none f)
  · intro history other hrows f order
    simp only [list, Table.ext_get? hrows]

end Store

namespace Sample

/-- An open task, always with the same bounty. -/
def numbered (id : TaskId) (title : String) : Task :=
  Task.posted id "ada" title "It leaks." ⟨⟨250, by decide⟩, "stake"⟩ 100

/-- Three tasks at once. -/
def straight : List Batch :=
  [{ tasks := [numbered 3 "Fix the pump", numbered 5 "Paint it", numbered 260 "Clean it"] }]

/-- The same rows by detours: one is replaced, and one comes and goes. -/
def roundabout : List Batch :=
  [{ tasks := [numbered 260 "Clean it", numbered 3 "Fix"] },
    { tasks := [numbered 4 "Sell it", numbered 3 "Fix the pump"] },
    { tasks := [numbered 5 "Paint it"], removedTasks := [4] }]

end Sample

namespace Store

/-- Both ways lead to the same lists. All bounties are the same, so the ids
ascend although the bounties were to descend. -/
theorem list_exact_sample :
    (empty.commitAll Sample.straight).list .everything (some (.bounty, .descending))
      = (empty.commitAll Sample.roundabout).list .everything (some (.bounty, .descending))
    ∧ Sample.numbered 260 "Clean it"
      ∈ (empty.commitAll Sample.straight).list .everything (some (.bounty, .descending))
    ∧ ((empty.commitAll Sample.straight).list .everything
        (some (.bounty, .descending))).Pairwise fun a b => a.id < b.id := by
  have htasks : (empty.commitAll Sample.straight).tasks
      = (empty.commitAll Sample.roundabout).tasks := by decide
  refine ⟨list_exact.2.2.2 _ _ (fun id => by rw [htasks]) _ _, ?_, ?_⟩
  · refine ((list_exact.1 _ _ _).1 _).mpr ⟨by decide, ?_⟩
    exact Filter.picks_iff.mp (by decide)
  · have hbounty : ∀ a ∈ (empty.commitAll Sample.straight).list .everything none,
        a.bounty.amount.toNat = 250 := by decide
    refine (list_exact.2.2.1 _ _ _ _).imp_of_mem fun {a b} ha hb h => ?_
    rw [(list_perm _ _ _).mem_iff] at ha hb
    rcases h with hless | ⟨-, hid⟩
    · have hlt : b.bounty.amount.toNat < a.bounty.amount.toNat := hless
      rw [hbounty a ha, hbounty b hb] at hlt
      exact absurd hlt (Nat.lt_irrefl _)
    · exact hid

end Store

end BountyBoard

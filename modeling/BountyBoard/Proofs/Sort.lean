import BountyBoard.Listing

/-!
# Sorting tasks

What sorting by a key has to do leaves nothing open: the tasks stay, the keys
are in order, and tasks with one key stay in the order they came in, in both
directions (`Sorts`). Only one list does all this (`eq_of_stable`): two such
lists begin with tasks that may stand before each other, so with tasks of
one key, and the first task of that key is the same in both.

That is why sorting and any selection of tasks can change places
(`filter_sortTasks`): what is selected from a sorted list is in order, and
the tasks of one key are selected from those of that key.
-/

namespace BountyBoard

/-! ## Stable orders -/

section

variable {α : Type} {le : α → α → Bool}

/-- Neither has to stand before the other. -/
def tied (le : α → α → Bool) (a b : α) : Bool :=
  le a b && le b a

theorem mem_iff_of_stable {xs ys : List α} (hrefl : ∀ a, le a a = true)
    (h : ∀ a, xs.filter (tied le a) = ys.filter (tied le a)) (a : α) : a ∈ xs ↔ a ∈ ys := by
  have hclass : a ∈ xs.filter (tied le a) ↔ a ∈ ys.filter (tied le a) := by rw [h]
  simpa [List.mem_filter, tied, hrefl] using hclass

/-- A list in order is fixed by what is tied with each of its elements, in
the order it has there. -/
theorem eq_of_stable {xs ys : List α} (hrefl : ∀ a, le a a = true)
    (hxs : xs.Pairwise fun a b => le a b = true) (hys : ys.Pairwise fun a b => le a b = true)
    (h : ∀ a, xs.filter (tied le a) = ys.filter (tied le a)) : xs = ys := by
  induction xs generalizing ys with
  | nil =>
      have hnone : ∀ a, a ∉ ys := fun a ha =>
        List.not_mem_nil ((mem_iff_of_stable hrefl h a).mpr ha)
      exact (List.eq_nil_iff_forall_not_mem.mpr hnone).symm
  | cons x xs ih =>
      have hmem := mem_iff_of_stable hrefl h
      cases ys with
      | nil => exact absurd ((hmem x).mp List.mem_cons_self) List.not_mem_nil
      | cons y ys =>
          obtain ⟨hx, hxrest⟩ := List.pairwise_cons.mp hxs
          obtain ⟨hy, hyrest⟩ := List.pairwise_cons.mp hys
          have hyx : le y x = true := by
            rcases List.mem_cons.mp ((hmem x).mp List.mem_cons_self) with rfl | hlater
            · exact hrefl x
            · exact hy x hlater
          have hxy : le x y = true := by
            rcases List.mem_cons.mp ((hmem y).mpr List.mem_cons_self) with rfl | hlater
            · exact hrefl y
            · exact hx y hlater
          -- the two heads are tied, and both are the first that is tied with `x`
          have hhead := h x
          rw [List.filter_cons_of_pos (by simp [tied, hrefl]),
            List.filter_cons_of_pos (by simp [tied, hxy, hyx])] at hhead
          obtain ⟨rfl, -⟩ := List.cons.inj hhead
          have htails : ∀ a, xs.filter (tied le a) = ys.filter (tied le a) := by
            intro a
            have ha := h a
            rw [List.filter_cons, List.filter_cons] at ha
            split at ha
            · exact (List.cons.inj ha).2
            · exact ha
          rw [ih hxrest hyrest htails]

/-- Merge sort leaves tied elements in their order. -/
theorem filter_tied_mergeSort
    (htrans : ∀ a b c, le a b = true → le b c = true → le a c = true)
    (htotal : ∀ a b, (le a b || le b a) = true) (xs : List α) (a : α) :
    (xs.mergeSort le).filter (tied le a) = xs.filter (tied le a) := by
  have hordered : (xs.filter (tied le a)).Pairwise fun b c => le b c = true := by
    refine List.pairwise_of_forall_mem_list fun b hb c hc => ?_
    have hba := (Bool.and_eq_true_iff.mp (List.mem_filter.mp hb).2).2
    have hac := (Bool.and_eq_true_iff.mp (List.mem_filter.mp hc).2).1
    exact htrans b a c hba hac
  have hsorted : (xs.filter (tied le a)).Sublist (xs.mergeSort le) :=
    List.sublist_mergeSort htrans htotal hordered List.filter_sublist
  have hsub : (xs.filter (tied le a)).Sublist ((xs.mergeSort le).filter (tied le a)) := by
    simpa [List.filter_filter] using hsorted.filter (tied le a)
  have hlength := ((List.mergeSort_perm xs le).filter (tied le a)).length_eq
  exact (hsub.eq_of_length hlength.symm).symm

end

/-! ## Keys -/

theorem Status.number_inj {a b : Status} : a.number = b.number ↔ a = b := by
  refine ⟨fun h => Option.some.inj ?_, congrArg _⟩
  rw [← ofNumber?_number a, h, ofNumber?_number]

namespace SortKey

/-- The first task has the smaller key. -/
def Less (k : SortKey) (a b : Task) : Prop :=
  match k with
  | .id => a.id < b.id
  | .bounty => a.bounty.amount < b.bounty.amount
  | .status => a.status.number < b.status.number
  | .createdAt => a.createdAt < b.createdAt

/-- The key does not tell the tasks apart. -/
def Same (k : SortKey) (a b : Task) : Prop :=
  match k with
  | .id => a.id = b.id
  | .bounty => a.bounty.amount = b.bounty.amount
  | .status => a.status = b.status
  | .createdAt => a.createdAt = b.createdAt

instance (k : SortKey) (a b : Task) : Decidable (k.Same a b) :=
  match k with
  | .id => inferInstanceAs (Decidable (a.id = b.id))
  | .bounty => inferInstanceAs (Decidable (a.bounty.amount = b.bounty.amount))
  | .status => inferInstanceAs (Decidable (a.status = b.status))
  | .createdAt => inferInstanceAs (Decidable (a.createdAt = b.createdAt))

variable {k : SortKey} {a b : Task}

theorem rank_lt_iff : k.rank a < k.rank b ↔ k.Less a b := by
  cases k with
  | id => exact Int.ofNat_lt.trans UInt64.lt_iff_toNat_lt.symm
  | bounty => exact Int.ofNat_lt
  | status => exact Int.ofNat_lt
  | createdAt => exact Int64.lt_iff_toInt_lt.symm

theorem rank_eq_iff : k.rank a = k.rank b ↔ k.Same a b := by
  cases k with
  | id => exact Int.ofNat_inj.trans UInt64.toNat_inj
  | bounty => exact Int.ofNat_inj.trans ⟨Amount.ext, congrArg _⟩
  | status => exact Int.ofNat_inj.trans Status.number_inj
  | createdAt => exact Int64.toInt_inj

end SortKey

/-- The first task comes first by the key in the direction. -/
def Before (k : SortKey) (d : Direction) (a b : Task) : Prop :=
  match d with
  | .ascending => k.Less a b
  | .descending => k.Less b a

section

variable {k : SortKey} {d : Direction}

theorem mayPrecede_iff {a b : Task} : mayPrecede k d a b = true ↔ ¬Before k d b a := by
  cases d <;> rw [Before, ← SortKey.rank_lt_iff, mayPrecede, decide_eq_true_iff, Int.not_lt]

theorem mayPrecede_refl (a : Task) : mayPrecede k d a a = true := by
  cases d <;> simp [mayPrecede]

theorem mayPrecede_trans (a b c : Task) (hab : mayPrecede k d a b = true)
    (hbc : mayPrecede k d b c = true) : mayPrecede k d a c = true := by
  cases d <;> simp only [mayPrecede, decide_eq_true_eq] at * <;> omega

theorem mayPrecede_total (a b : Task) : (mayPrecede k d a b || mayPrecede k d b a) = true := by
  cases d <;> simp only [mayPrecede, Bool.or_eq_true, decide_eq_true_eq] <;> omega

theorem tied_mayPrecede (a b : Task) : tied (mayPrecede k d) a b = decide (k.Same a b) := by
  rw [Bool.eq_iff_iff, decide_eq_true_iff, ← SortKey.rank_eq_iff, tied, Bool.and_eq_true]
  cases d <;> simp only [mayPrecede, decide_eq_true_eq] <;> omega

theorem filter_tied (ts : List Task) (t : Task) :
    ts.filter (tied (mayPrecede k d) t) = ts.filter fun u => decide (k.Same t u) := by
  rw [funext (tied_mayPrecede t)]

/-! ## What sorting does -/

/-- The list has the tasks of another in the order of their keys, and those
of one key as they came. -/
structure Sorts (k : SortKey) (d : Direction) (ts out : List Task) : Prop where
  perm : out.Perm ts
  ordered : out.Pairwise fun a b => ¬Before k d b a
  stable : ∀ t, out.filter (fun u => decide (k.Same t u)) = ts.filter fun u => decide (k.Same t u)

theorem sorts_sortTasks (ts : List Task) : Sorts k d ts (sortTasks k d ts) where
  perm := List.mergeSort_perm ts _
  ordered := by
    refine (List.pairwise_mergeSort mayPrecede_trans mayPrecede_total ts).imp ?_
    exact mayPrecede_iff.mp
  stable t := by
    rw [← filter_tied, ← filter_tied (d := d)]
    exact filter_tied_mergeSort mayPrecede_trans mayPrecede_total ts t

/-- There is one way only to sort a list. -/
theorem Sorts.unique {ts out other : List Task} (h : Sorts k d ts out)
    (hother : Sorts k d ts other) : out = other := by
  have hclasses : ∀ t, out.filter (tied (mayPrecede k d) t)
      = other.filter (tied (mayPrecede k d) t) := by
    intro t
    rw [filter_tied, filter_tied]
    exact (h.stable t).trans (hother.stable t).symm
  exact eq_of_stable mayPrecede_refl (h.ordered.imp mayPrecede_iff.mpr)
    (hother.ordered.imp mayPrecede_iff.mpr) hclasses

/-- What is selected from a sorted list is the selection, sorted. -/
theorem Sorts.filter {ts out : List Task} (h : Sorts k d ts out) (p : Task → Bool) :
    Sorts k d (ts.filter p) (out.filter p) where
  perm := h.perm.filter p
  ordered := h.ordered.filter p
  stable t := by
    have hclass := congrArg (List.filter p) (h.stable t)
    simpa only [List.filter_filter, Bool.and_comm] using hclass

/-- A sorted list is sorted already. -/
theorem Sorts.again {ts out : List Task} (h : Sorts k d ts out) : Sorts k d out out :=
  { h with perm := List.Perm.refl out, stable := fun _ => rfl }

/-- Sorting any list of tasks gives the one list that sorting can mean. Sorting
that once more changes nothing, and it makes no difference whether tasks are
selected before or after. -/
theorem sort_unique (k : SortKey) (d : Direction) (ts : List Task) :
    (∀ out, Sorts k d ts out ↔ out = sortTasks k d ts)
    ∧ sortTasks k d (sortTasks k d ts) = sortTasks k d ts
    ∧ ∀ f : Filter, (sortTasks k d ts).filter f.picks = sortTasks k d (ts.filter f.picks) := by
  have hsorted : Sorts k d ts (sortTasks k d ts) := sorts_sortTasks ts
  refine ⟨?_, ?_, ?_⟩
  · intro out
    constructor
    · exact fun h => h.unique hsorted
    · rintro rfl
      exact hsorted
  · exact (sorts_sortTasks _).unique hsorted.again
  · exact fun f => (hsorted.filter f.picks).unique (sorts_sortTasks _)

end

end BountyBoard

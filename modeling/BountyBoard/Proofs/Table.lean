import BountyBoard.Table

/-!
# Several rows at once

What stands in a table after a list of rows was put in: for each id the
last row of the list that carries it, and the old row where there is none
(`get?_foldl_insert`). So the rows of a table, put into an empty one, make
the table again (`foldl_insert_rows`), and of rows with different ids none
is lost (`get?_foldl_insert_of_nodup`). A row whose id is new displaces
nothing, so the rows then are the old ones and that row (`rows_insert_perm`),
and so it is with several (`rows_foldl_insert_perm`).

One row at a time, a table `Sets` an id to a row or to none, and the rest
stays.
-/

namespace BountyBoard.Table

variable {α : Type} {key : α → TaskId}

@[simp] theorem get?_insert_self (t : Table key) (a : α) : (t.insert a).get? (key a) = some a := by
  rw [get?_insert, if_pos rfl]

theorem get?_insert_of_ne (t : Table key) {a : α} {id : TaskId} (h : id ≠ key a) :
    (t.insert a).get? id = t.get? id := by
  rw [get?_insert, if_neg h]

theorem get?_insert_cases {t : Table key} {a b : α} {id : TaskId}
    (h : (t.insert a).get? id = some b) : t.get? id = some b ∨ b = a := by
  rw [get?_insert] at h
  split at h
  · cases h
    exact .inr rfl
  · exact .inl h

theorem get?_foldl_insert (t : Table key) (rows : List α) (id : TaskId) :
    (rows.foldl insert t).get? id
      = (rows.reverse.find? fun a => key a == id).or (t.get? id) := by
  induction rows generalizing t with
  | nil => simp
  | cons a rest ih =>
      rw [List.foldl_cons, ih, get?_insert, List.reverse_cons, List.find?_append, Option.or_assoc]
      by_cases h : id = key a
      · simp [h]
      · simp [h, Ne.symm h]

/-- A row in a table that was empty before is one of those put in. -/
theorem mem_of_get?_foldl_insert {rows : List α} {id : TaskId} {a : α}
    (h : (rows.foldl insert (empty : Table key)).get? id = some a) : a ∈ rows ∧ key a = id := by
  refine ⟨?_, key_of_get? h⟩
  rw [get?_foldl_insert, get?_empty, Option.or_none] at h
  exact List.mem_reverse.mp (List.mem_of_find?_eq_some h)

/-- Rows that are put into an empty table again make the same table. -/
theorem foldl_insert_rows (t : Table key) : t.rows.foldl insert empty = t := by
  refine ext_get? fun id => ?_
  rw [get?_foldl_insert, get?_empty, Option.or_none]
  cases hfind : t.rows.reverse.find? (fun a => key a == id) with
  | none =>
      refine (List.find?_eq_none.mpr fun a ha => ?_).symm
      exact List.find?_eq_none.mp hfind a (List.mem_reverse.mpr ha)
  | some a =>
      have hmem := List.mem_reverse.mp (List.mem_of_find?_eq_some hfind)
      have hkey : key a = id := by simpa using List.find?_some hfind
      rw [← hkey, get?_of_mem hmem]

/-- At most one of these rows has the id, so either end of the list will do
to look for it from. -/
theorem find?_reverse_of_nodup {rows : List α} (h : (rows.map key).Nodup) (id : TaskId) :
    rows.reverse.find? (fun a => key a == id) = rows.find? fun a => key a == id := by
  induction rows with
  | nil => rfl
  | cons a rest ih =>
      obtain ⟨hnew, hrest⟩ := List.nodup_cons.mp h
      rw [List.reverse_cons, List.find?_append, ih hrest]
      by_cases ha : key a = id
      · have hothers : rest.find? (fun b => key b == id) = none := by
          refine List.find?_eq_none.mpr fun b hb heq => hnew ?_
          exact List.mem_map.mpr ⟨b, hb, (eq_of_beq heq).trans ha.symm⟩
        simp [ha, hothers]
      · simp [ha]

theorem get?_foldl_insert_of_nodup {rows : List α} (h : (rows.map key).Nodup) (id : TaskId) :
    (rows.foldl insert (empty : Table key)).get? id = rows.find? fun a => key a == id := by
  rw [get?_foldl_insert, get?_empty, Option.or_none, find?_reverse_of_nodup h]

theorem nodup_keys (t : Table key) : (t.rows.map key).Nodup := by
  refine List.nodup_iff_pairwise_ne.mpr (List.pairwise_map.mpr (t.ascending.imp fun hlt heq => ?_))
  rw [heq] at hlt
  exact UInt64.lt_irrefl _ hlt

theorem insertRow_perm {a : α} {rows : List α} (h : ∀ b ∈ rows, key b ≠ key a) :
    (insertRow key a rows).Perm (a :: rows) := by
  induction rows with
  | nil => exact List.Perm.refl _
  | cons b rest ih =>
      rw [insertRow]
      split
      · exact List.Perm.refl _
      · split
        · have hrest := ih fun c hc => h c (List.mem_cons_of_mem b hc)
          exact (hrest.cons b).trans (List.Perm.swap a b rest)
        · rename_i hab hba
          have heq : key b = key a :=
            UInt64.le_antisymm (UInt64.not_lt.mp hab) (UInt64.not_lt.mp hba)
          exact absurd heq (h b List.mem_cons_self)

theorem rows_insert_perm {t : Table key} {a : α} (h : t.get? (key a) = none) :
    (t.insert a).rows.Perm (a :: t.rows) := by
  refine insertRow_perm fun b hb heq => ?_
  have hfound := get?_of_mem hb
  rw [heq, h] at hfound
  cases hfound

/-- Rows with different ids, none of them in the table yet, are all there
after they were put in. -/
theorem rows_foldl_insert_perm {t : Table key} {rows : List α} (hrows : (rows.map key).Nodup)
    (hnew : ∀ a ∈ rows, t.get? (key a) = none) : (rows.foldl insert t).rows.Perm (rows ++ t.rows) := by
  induction rows generalizing t with
  | nil => exact List.Perm.refl _
  | cons a rest ih =>
      obtain ⟨hother, hrest⟩ := List.nodup_cons.mp hrows
      have hstill : ∀ b ∈ rest, (t.insert a).get? (key b) = none := by
        intro b hb
        have hne : key b ≠ key a := fun heq => hother (heq ▸ List.mem_map_of_mem hb)
        rw [get?_insert_of_ne t hne]
        exact hnew b (List.mem_cons_of_mem a hb)
      have hput := rows_insert_perm (hnew a List.mem_cons_self)
      exact (ih hrest hstill).trans ((hput.append_left rest).trans List.perm_middle)

/-- The later table has `row` under the id, and is the earlier one otherwise. -/
structure Sets (earlier : Table key) (id : TaskId) (row : Option α) (later : Table key) :
    Prop where
  row : later.get? id = row
  others : ∀ i, i ≠ id → later.get? i = earlier.get? i

theorem sets_insert (t : Table key) {a : α} {id : TaskId} (h : key a = id) :
    t.Sets id (some a) (t.insert a) := by
  subst h
  exact ⟨get?_insert_self t a, fun _ hi => get?_insert_of_ne t hi⟩

theorem sets_erase (t : Table key) (id : TaskId) : t.Sets id none (t.erase id) where
  row := by rw [get?_erase, if_pos rfl]
  others i hi := by rw [get?_erase, if_neg hi]

end BountyBoard.Table

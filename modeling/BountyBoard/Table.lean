import BountyBoard.Amount

/-!
# Tables of rows

Rows that each carry their own id, at most one row an id, in ascending
order of ids. A row enters under its own id and replaces the row that was
there (`get?_insert`), and erasing an id touches no other row
(`get?_erase`). Two tables that answer every id alike are equal (`ext_get?`).
-/

namespace BountyBoard

/-- Rows in strictly ascending order of their ids. -/
structure Table {α : Type} (key : α → TaskId) where
  rows : List α
  ascending : rows.Pairwise fun a b => key a < key b
deriving Repr, DecidableEq

namespace Table

variable {α : Type} {key : α → TaskId}

def empty : Table key :=
  ⟨[], List.Pairwise.nil⟩

/-- Puts a row into ascending rows, in the place of a row with its id. -/
def insertRow (key : α → TaskId) (a : α) : List α → List α
  | [] => [a]
  | b :: rest =>
    if key a < key b then a :: b :: rest
    else if key b < key a then b :: insertRow key a rest
    else a :: rest

theorem mem_insertRow {a c : α} {rows : List α} (h : c ∈ insertRow key a rows) :
    c = a ∨ c ∈ rows := by
  induction rows with
  | nil => simpa [insertRow] using h
  | cons b rest ih =>
    rw [insertRow] at h
    split at h
    · simpa using h
    · split at h
      · rcases List.mem_cons.1 h with rfl | h
        · simp
        · rcases ih h with rfl | h <;> simp_all
      · rcases List.mem_cons.1 h with rfl | h <;> simp_all

theorem ascending_insertRow {a : α} {rows : List α}
    (h : rows.Pairwise fun a b => key a < key b) :
    (insertRow key a rows).Pairwise fun a b => key a < key b := by
  induction rows with
  | nil => simp [insertRow]
  | cons b rest ih =>
    obtain ⟨hb, hrest⟩ := List.pairwise_cons.1 h
    rw [insertRow]
    split
    · rename_i hab
      refine List.pairwise_cons.2 ⟨fun c hc => ?_, h⟩
      rcases List.mem_cons.1 hc with rfl | hc
      · exact hab
      · exact UInt64.lt_trans hab (hb c hc)
    · split
      · rename_i hba
        refine List.pairwise_cons.2 ⟨fun c hc => ?_, ih hrest⟩
        rcases mem_insertRow hc with rfl | hc
        · exact hba
        · exact hb c hc
      · rename_i hab hba
        have heq : key a = key b :=
          UInt64.le_antisymm (UInt64.not_lt.1 hba) (UInt64.not_lt.1 hab)
        exact List.pairwise_cons.2 ⟨fun c hc => heq ▸ hb c hc, hrest⟩

/-- The table with a row put under the row's own id. -/
def insert (t : Table key) (a : α) : Table key :=
  ⟨insertRow key a t.rows, ascending_insertRow t.ascending⟩

def erase (t : Table key) (id : TaskId) : Table key :=
  ⟨t.rows.filter fun a => key a != id, t.ascending.filter _⟩

def get? (t : Table key) (id : TaskId) : Option α :=
  t.rows.find? fun a => key a == id

def contains (t : Table key) (id : TaskId) : Bool :=
  (t.get? id).isSome

/-- A row is found under its own id. -/
theorem key_of_get? {t : Table key} {id : TaskId} {a : α} (h : t.get? id = some a) :
    key a = id := by
  simpa using List.find?_some h

theorem mem_of_get? {t : Table key} {id : TaskId} {a : α} (h : t.get? id = some a) :
    a ∈ t.rows :=
  List.mem_of_find?_eq_some h

@[simp] theorem get?_empty (id : TaskId) : (empty : Table key).get? id = none := rfl

theorem find?_insertRow {a : α} {rows : List α}
    (h : rows.Pairwise fun a b => key a < key b) (id : TaskId) :
    (insertRow key a rows).find? (fun c => key c == id)
      = if id = key a then some a else rows.find? fun c => key c == id := by
  induction rows with
  | nil =>
    by_cases hid : id = key a
    · simp [insertRow, hid]
    · simp [insertRow, hid, Ne.symm hid]
  | cons b rest ih =>
    obtain ⟨hb, hrest⟩ := List.pairwise_cons.1 h
    rw [insertRow]
    split
    · by_cases hid : id = key a
      · simp [hid]
      · simp [hid, Ne.symm hid]
    · split
      · rename_i hba
        by_cases hid : id = key b
        · subst hid
          have : key b ≠ key a := fun h => by simp [h] at hba
          simp [this]
        · simp [ih hrest, Ne.symm hid]
      · rename_i hab hba
        have heq : key a = key b :=
          UInt64.le_antisymm (UInt64.not_lt.1 hba) (UInt64.not_lt.1 hab)
        by_cases hid : id = key a
        · simp [hid]
        · have hid' : id ≠ key b := fun h => hid (h.trans heq.symm)
          simp [hid, Ne.symm hid, Ne.symm hid']

/-- Inserting a row sets the row of its id and no other. -/
theorem get?_insert (t : Table key) (a : α) (id : TaskId) :
    (t.insert a).get? id = if id = key a then some a else t.get? id :=
  find?_insertRow t.ascending id

/-- Erasing an id removes its row and no other. -/
theorem get?_erase (t : Table key) (removed id : TaskId) :
    (t.erase removed).get? id = if id = removed then none else t.get? id := by
  simp only [get?, erase, List.find?_filter]
  by_cases hid : id = removed
  · subst hid
    simp
  · rw [if_neg hid]
    congr 1
    funext a
    by_cases ha : key a = id <;> simp [ha, hid]

/-- The row of an id is the only row with that id. -/
theorem get?_of_mem {t : Table key} {a : α} (h : a ∈ t.rows) : t.get? (key a) = some a := by
  obtain ⟨rows, hasc⟩ := t
  simp only [get?] at h ⊢
  induction rows with
  | nil => cases h
  | cons b rest ih =>
    obtain ⟨hb, hrest⟩ := List.pairwise_cons.1 hasc
    rcases List.mem_cons.1 h with rfl | h
    · simp
    · have hne : key b ≠ key a := fun heq => by
        have := hb a h
        simp [heq] at this
      simp [hne, ih hrest h]

theorem mem_rows_iff {t : Table key} {a : α} : a ∈ t.rows ↔ t.get? (key a) = some a :=
  ⟨get?_of_mem, mem_of_get?⟩

theorem rows_eq_of_mem_iff : ∀ {xs ys : List α},
    (xs.Pairwise fun a b => key a < key b) → (ys.Pairwise fun a b => key a < key b) →
      (∀ a, a ∈ xs ↔ a ∈ ys) → xs = ys
  | [], [], _, _, _ => rfl
  | [], y :: _, _, _, h => absurd ((h y).2 (by simp)) (by simp)
  | x :: _, [], _, _, h => absurd ((h x).1 (by simp)) (by simp)
  | x :: xs, y :: ys, hxs, hys, h => by
      obtain ⟨hx, hxs'⟩ := List.pairwise_cons.1 hxs
      obtain ⟨hy, hys'⟩ := List.pairwise_cons.1 hys
      have hxy : x = y := by
        rcases List.mem_cons.1 ((h x).1 (by simp)) with heq | hmem
        · exact heq
        · rcases List.mem_cons.1 ((h y).2 (by simp)) with heq | hmem'
          · exact heq.symm
          · exact absurd (hx y hmem') (UInt64.lt_asymm (hy x hmem))
      subst hxy
      congr 1
      refine rows_eq_of_mem_iff hxs' hys' fun a => ?_
      constructor
      · intro ha
        rcases List.mem_cons.1 ((h a).1 (by simp [ha])) with rfl | ha'
        · exact absurd (hx a ha) (UInt64.lt_irrefl _)
        · exact ha'
      · intro ha
        rcases List.mem_cons.1 ((h a).2 (by simp [ha])) with rfl | ha'
        · exact absurd (hy a ha) (UInt64.lt_irrefl _)
        · exact ha'

/-- Tables that give the same answer for every id are the same. -/
theorem ext_get? {s t : Table key} (h : ∀ id, s.get? id = t.get? id) : s = t := by
  obtain ⟨xs, hxs⟩ := s
  obtain ⟨ys, hys⟩ := t
  have hrows : xs = ys := rows_eq_of_mem_iff hxs hys fun a => by
    have hs := mem_rows_iff (t := ⟨xs, hxs⟩) (a := a)
    have ht := mem_rows_iff (t := ⟨ys, hys⟩) (a := a)
    rw [hs, ht, h]
  subst hrows
  rfl

end Table

end BountyBoard

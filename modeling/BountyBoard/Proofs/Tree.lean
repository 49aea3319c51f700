import BountyBoard.Digest.Receipt
import BountyBoard.Proofs.Radix
import BountyBoard.Proofs.Table

/-!
# Rows under keys of bytes

A database knows nothing of ids. It keeps each row under a key of bytes, in
the order in which the keys compare byte by byte, and the key of a row here
is its id with the high byte first. That order of keys is the order of the
ids, since a digit further in front outweighs all the digits behind it
(`comesBefore_bigEndian`). So a table is such a tree with the keys left out:
what is put into the tree, taken out of it or looked up in it under the key
of an id is what the table does with the id (`tree_insert`, `tree_erase`,
`get?_tree`).
-/

namespace BountyBoard

/-! ## The order of the keys -/

/-- Keys compare by the first byte in which they differ, and a key comes
before its continuations. -/
def comesBefore : List UInt8 → List UInt8 → Bool
  | _, [] => false
  | [], _ :: _ => true
  | a :: as, b :: bs => a < b || (a == b && comesBefore as bs)

/-- A number that is smaller by its front digits stays smaller, whatever digits follow. -/
theorem Radix.foldl_lt_foldl {b : Nat} {ds es : List Nat} (hlength : ds.length = es.length)
    (hds : ∀ d ∈ ds, d < b) {m n : Nat} (hlt : m < n) :
    ds.foldl (fun n d => n * b + d) m < es.foldl (fun n d => n * b + d) n := by
  induction ds generalizing es m n with
  | nil =>
      rw [List.length_eq_zero_iff.mp hlength.symm]
      exact hlt
  | cons d ds ih =>
      obtain ⟨e, es, rfl⟩ := List.exists_cons_of_length_eq_add_one hlength.symm
      refine ih (Nat.succ.inj hlength) (fun c hc => hds c (List.mem_cons_of_mem d hc)) ?_
      calc m * b + d
          < m * b + b := Nat.add_lt_add_left (hds d List.mem_cons_self) _
        _ = (m + 1) * b := (Nat.succ_mul m b).symm
        _ ≤ n * b := Nat.mul_le_mul_right b hlt
        _ ≤ n * b + e := Nat.le_add_right _ _

/-- Keys of one length come before each other as the numbers they stand for. -/
theorem comesBefore_iff {as bs : List UInt8} (hlength : as.length = bs.length) (n : Nat) :
    comesBefore as bs = true
      ↔ (as.map UInt8.toNat).foldl (fun n d => n * 256 + d) n
        < (bs.map UInt8.toNat).foldl (fun n d => n * 256 + d) n := by
  induction as generalizing bs n with
  | nil =>
      rw [List.length_eq_zero_iff.mp hlength.symm]
      simp [comesBefore]
  | cons a as ih =>
      obtain ⟨b, bs, rfl⟩ := List.exists_cons_of_length_eq_add_one hlength.symm
      have hrest : as.length = bs.length := Nat.succ.inj hlength
      have hlengths : (as.map UInt8.toNat).length = (bs.map UInt8.toNat).length := by simpa
      rw [comesBefore, List.map_cons, List.map_cons, List.foldl_cons, List.foldl_cons]
      rcases Nat.lt_trichotomy a.toNat b.toNat with hlt | heq | hgt
      · have hab : a < b := UInt8.lt_iff_toNat_lt.mpr hlt
        simpa [hab] using Radix.foldl_lt_foldl hlengths (fun _ => Radix.lt_of_mem_map_toNat)
          (Nat.add_lt_add_left hlt _)
      · obtain rfl := UInt8.toNat_inj.mp heq
        simpa using ih hrest _
      · have hab : ¬a < b := fun h => Nat.lt_asymm hgt (UInt8.lt_iff_toNat_lt.mp h)
        have hne : a ≠ b := fun h => Nat.lt_irrefl _ (h ▸ hgt)
        simpa [hab, hne] using Nat.le_of_lt (Radix.foldl_lt_foldl hlengths.symm
          (fun _ => Radix.lt_of_mem_map_toNat) (Nat.add_lt_add_left hgt (n * 256)))

/-- The keys of ids come before each other as the ids do. -/
theorem comesBefore_bigEndian {v w : TaskId} :
    comesBefore (bigEndian v) (bigEndian w) = true ↔ v < w := by
  have hlength : (bigEndian v).length = (bigEndian w).length := rfl
  rw [comesBefore_iff hlength 0, UInt64.lt_iff_toNat_lt, ← value_bigEndian v, ← value_bigEndian w]
  rfl

/-! ## Trees -/

/-- Rows under keys of bytes. -/
abbrev Tree (α : Type) :=
  List (List UInt8 × α)

namespace Tree

variable {α : Type}

/-- Puts a row under a key, in the place of a row that is there. -/
def put (key : List UInt8) (a : α) : Tree α → Tree α
  | [] => [(key, a)]
  | entry :: rest =>
    if comesBefore key entry.1 then (key, a) :: entry :: rest
    else if comesBefore entry.1 key then entry :: put key a rest
    else (key, a) :: rest

def remove (key : List UInt8) (tree : Tree α) : Tree α :=
  tree.filter fun entry => entry.1 != key

def get? (key : List UInt8) (tree : Tree α) : Option α :=
  (tree.find? fun entry => entry.1 == key).map (·.2)

end Tree

namespace Table

variable {α : Type} {key : α → TaskId}

/-- The rows of a table, each under the key of its own id. -/
def tree (t : Table key) : Tree α :=
  t.rows.map fun a => (bigEndian (key a), a)

theorem tree_insert (t : Table key) (a : α) :
    (t.insert a).tree = t.tree.put (bigEndian (key a)) a := by
  obtain ⟨rows, hascending⟩ := t
  simp only [tree, insert]
  clear hascending
  induction rows with
  | nil => rfl
  | cons b rest ih =>
      simp only [insertRow, List.map_cons, Tree.put, comesBefore_bigEndian,
        apply_ite (List.map _), ih]

theorem tree_erase (t : Table key) (id : TaskId) :
    (t.erase id).tree = t.tree.remove (bigEndian id) := by
  simp only [tree, erase, Tree.remove, List.filter_map]
  congr 2
  funext a
  simp [bigEndian_inj, bne]

theorem pairwise_tree (t : Table key) :
    t.tree.Pairwise fun e f => comesBefore e.1 f.1 = true :=
  List.pairwise_map.mpr (t.ascending.imp comesBefore_bigEndian.mpr)

theorem get?_tree (t : Table key) (id : TaskId) : t.tree.get? (bigEndian id) = t.get? id := by
  have hkeys : ((fun entry : List UInt8 × α => entry.1 == bigEndian id)
      ∘ fun a => (bigEndian (key a), a)) = fun a => key a == id := by
    funext a
    simp [bigEndian_inj]
  rw [tree, Tree.get?, List.find?_map, hkeys, Option.map_map]
  exact Option.map_id_fun' ▸ rfl

end Table

end BountyBoard

import BountyBoard.Radix
import Mathlib.Data.List.Induction

/-!
# Digit strings and numbers, the other way round

`value_digits` says that the digits of a number stand for that number.
Here is the converse, for digit strings without leading zeros
(`digits_value`), and what follows for strings with any number of leading
zeros: turning a digit string into another base and back gives the string
itself (`convert_convert`). Both need every digit to lie below its base.
-/

namespace BountyBoard.Radix

/-! ## Digits -/

/-- Digits lie below their base. -/
theorem lt_of_mem_digits {b d n : Nat} (h : d ∈ digits b n) : d < b := by
  induction n using Nat.strongRecOn with
  | ind n ih =>
      rw [digits] at h
      split at h
      · rename_i hpos
        rcases List.mem_append.mp h with hrest | hlast
        · exact ih _ (Nat.div_lt_self hpos.2 hpos.1) hrest
        · rw [List.mem_singleton.mp hlast]
          exact Nat.mod_lt n (by omega)
      · cases h

/-- Bytes are digits in base 256. -/
theorem lt_of_mem_map_toNat {d : Nat} {bytes : List UInt8} (h : d ∈ bytes.map UInt8.toNat) :
    d < 256 := by
  obtain ⟨byte, -, rfl⟩ := List.mem_map.mp h
  exact byte.toNat_lt

/-- The digits of a number do not begin with a zero. -/
theorem head?_digits_ne {b : Nat} (hb : 2 ≤ b) (n : Nat) : (digits b n).head? ≠ some 0 := by
  induction n using Nat.strongRecOn with
  | ind n ih =>
      rcases Nat.eq_zero_or_pos n with rfl | hn
      · rw [digits_zero]
        simp
      · rw [digits_of_pos hb hn]
        rcases Nat.eq_zero_or_pos (n / b) with hq | hq
        · rw [hq, digits_zero]
          have hlt : n < b := (Nat.div_eq_zero_iff.mp hq).resolve_left (by omega)
          simp [Nat.mod_eq_of_lt hlt]
          omega
        · have hne : digits b (n / b) ≠ [] := by
            rw [digits_of_pos hb hq]
            simp
          obtain ⟨d, rest, heq⟩ := List.exists_cons_of_ne_nil hne
          have hd := ih _ (Nat.div_lt_self hn hb)
          rw [heq] at hd ⊢
          exact hd

/-! ## Values -/

theorem value_zero_cons (b : Nat) (ds : List Nat) : value b (0 :: ds) = value b ds := by
  rw [value, List.foldl_cons, Nat.zero_mul]
  rfl

theorem value_pos {b : Nat} (hb : 2 ≤ b) {ds : List Nat} (hne : ds ≠ [])
    (hhead : ds.head? ≠ some 0) : 0 < value b ds := by
  induction ds using List.reverseRecOn with
  | nil => exact absurd rfl hne
  | append_singleton ds d ih =>
      rw [value_append_singleton]
      cases ds with
      | nil =>
          have hd : 0 < d := Nat.pos_of_ne_zero fun h => hhead (by rw [h]; rfl)
          exact Nat.add_pos_right _ hd
      | cons e rest =>
          have hrest := ih (List.cons_ne_nil e rest) hhead
          exact Nat.add_pos_left (Nat.mul_pos hrest (by omega)) d

/-- A digit string without leading zeros is the digits of its number. -/
theorem digits_value {b : Nat} (hb : 2 ≤ b) {ds : List Nat} (hlt : ∀ d ∈ ds, d < b)
    (hhead : ds.head? ≠ some 0) : digits b (value b ds) = ds := by
  induction ds using List.reverseRecOn with
  | nil => exact digits_zero b
  | append_singleton ds d ih =>
      have hd : d < b := hlt d (by simp)
      have hpos : 0 < value b (ds ++ [d]) := value_pos hb (by simp) hhead
      have hhead' : ds.head? ≠ some 0 := by
        cases ds with
        | nil => simp
        | cons e rest => simpa using hhead
      rw [digits_of_pos hb hpos, value_append_singleton]
      have hquot : (value b ds * b + d) / b = value b ds := by
        rw [Nat.mul_comm, Nat.mul_add_div (by omega), Nat.div_eq_of_lt hd, Nat.add_zero]
      have hrem : (value b ds * b + d) % b = d := by
        rw [Nat.mul_comm, Nat.mul_add_mod, Nat.mod_eq_of_lt hd]
      rw [hquot, hrem, ih (fun e he => hlt e (by simp [he])) hhead']

/-! ## Leading zeros -/

theorem value_replicate_zero_append (b n : Nat) (ds : List Nat) :
    value b (List.replicate n 0 ++ ds) = value b ds := by
  induction n with
  | zero => rfl
  | succ n ih =>
      rw [List.replicate_succ, List.cons_append, value_zero_cons, ih]

theorem leadingZeros_replicate_append (n : Nat) {ds : List Nat} (hhead : ds.head? ≠ some 0) :
    leadingZeros (List.replicate n 0 ++ ds) = n := by
  induction n with
  | zero =>
      cases ds with
      | nil => rfl
      | cons d rest =>
          have hd : d ≠ 0 := fun h => hhead (by rw [h]; rfl)
          simp [leadingZeros, hd]
  | succ n ih =>
      rw [leadingZeros] at ih ⊢
      rw [List.replicate_succ, List.cons_append, List.takeWhile_cons_of_pos rfl,
        List.length_cons, ih]

/-- A digit string is its leading zeros and a string that does not begin with one. -/
theorem eq_replicate_append (ds : List Nat) :
    ∃ rest, ds = List.replicate (leadingZeros ds) 0 ++ rest ∧ rest.head? ≠ some 0 := by
  induction ds with
  | nil => exact ⟨[], rfl, by simp⟩
  | cons d ds ih =>
      by_cases hd : d = 0
      · obtain ⟨rest, heq, hhead⟩ := ih
        refine ⟨rest, ?_, hhead⟩
        rw [leadingZeros] at heq ⊢
        rw [List.takeWhile_cons_of_pos (by simpa using hd), List.length_cons, List.replicate_succ,
          List.cons_append, ← heq, hd]
      · exact ⟨d :: ds, by simp [leadingZeros, hd], by simpa using hd⟩

/-! ## Changing the base -/

theorem lt_of_mem_convert {a b d : Nat} (hb : 2 ≤ b) {ds : List Nat} (h : d ∈ convert a b ds) :
    d < b := by
  rcases List.mem_append.mp h with hzero | hdigit
  · rw [(List.mem_replicate.mp hzero).2]
    omega
  · exact lt_of_mem_digits hdigit

/-- A digit string in its own base is the string itself. -/
theorem convert_self {a : Nat} (ha : 2 ≤ a) {ds : List Nat} (hlt : ∀ d ∈ ds, d < a) :
    convert a a ds = ds := by
  obtain ⟨rest, heq, hhead⟩ := eq_replicate_append ds
  have hvalue : value a ds = value a rest := by
    rw [heq, value_replicate_zero_append]
  have hrest : ∀ d ∈ rest, d < a := fun d hd =>
    hlt d (by rw [heq]; exact List.mem_append_right _ hd)
  rw [convert, hvalue, digits_value ha hrest hhead]
  exact heq.symm

/-- A digit string put into another base and back is the string itself. -/
theorem convert_convert {a b : Nat} (ha : 2 ≤ a) (hb : 2 ≤ b) {ds : List Nat}
    (hlt : ∀ d ∈ ds, d < a) : convert b a (convert a b ds) = ds :=
  calc convert b a (convert a b ds)
      = List.replicate (leadingZeros ds) 0 ++ digits a (value b (digits b (value a ds))) := by
        rw [convert, convert, leadingZeros_replicate_append _ (head?_digits_ne hb _),
          value_replicate_zero_append]
    _ = convert a a ds := by rw [value_digits hb, convert]
    _ = ds := convert_self ha hlt

end BountyBoard.Radix

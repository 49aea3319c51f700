import BountyBoard.Proofs.Acceptance
import BountyBoard.Reward.Split
import Mathlib.Data.List.Forall2

/-!
# What a split pays out

A weight calls for its part of the reward, rounded down (`due`), and whoever
is due something gets one share of that amount (`shares_eq_ok`). The first
product that leaves the range breaks the split off, wherever it stands in the
list (`shares_eq_error`). The weights themselves never add up to more than an
amount can hold: there are fewer than 2⁶⁴ of them, each below 2⁶⁴
(`totalWeight_lt`).

Rounding loses less than one unit for each recipient with a weight. A
division by the total leaves a remainder below the total, and none for a
weight of zero, so the remainders stay below the total times the number of
those recipients (`mul_totalWeight_le`). They stay strictly below it because
there is such a recipient, which is why a split without any weight has to be
a case of its own.
-/

namespace BountyBoard.Reward

/-! ## Specification -/

/-- What a weight calls for: its part of the reward, rounded down. -/
def due (r : Reward) (total : Nat) (weight : Count) : Nat :=
  r.amount.amount.toNat * weight.toNat / total

/-- A share that pays `amount` to `recipient` and is like the reward otherwise. -/
structure IsShare (r : Reward) (recipient : String) (amount : Nat) (s : Reward) : Prop where
  taskId : s.taskId = r.taskId
  claimant : s.claimant = recipient
  amount : s.amount.amount.toNat = amount
  denom : s.amount.denom = r.amount.denom
  timestamp : s.timestamp = r.timestamp
  txHash : s.txHash = r.txHash

/-- The amounts of some rewards together. -/
def totalAmount : List Reward → Nat
  | [] => 0
  | s :: rest => s.amount.amount.toNat + totalAmount rest

/-- The shares are one for each recipient who is due something, in the order
of the recipients. Together they are at most the reward, and what is left of
it is less than the number of recipients with a weight. A weight that is not
smaller gets a share that is not smaller. -/
structure SharedOut (r : Reward) (recipients : List String) (weights : List Count)
    (out : List Reward) : Prop where
  shares : List.Forall₂ (fun p s => r.IsShare p.1 (r.due (totalWeight weights) p.2) s)
    ((recipients.zip weights).filter fun p => decide (0 < r.due (totalWeight weights) p.2)) out
  within : totalAmount out ≤ r.amount.amount.toNat
  rest : r.amount.amount.toNat < totalAmount out + weights.countP fun w => decide (0 < w)
  fair : ∀ p ∈ recipients.zip weights, ∀ q ∈ recipients.zip weights, p.2 ≤ q.2 →
    ∀ s ∈ out, r.IsShare p.1 (r.due (totalWeight weights) p.2) s →
      ∃ u ∈ out, r.IsShare q.1 (r.due (totalWeight weights) q.2) u
        ∧ s.amount.amount ≤ u.amount.amount

/-- What all the weights call for together. -/
def totalDue (r : Reward) (total : Nat) : List Count → Nat
  | [] => 0
  | weight :: rest => r.due total weight + totalDue r total rest

/-! ## One recipient after the other -/

theorem isShare_iff {r : Reward} {recipient : String} {amount : Nat} (h : amount < Amount.size)
    {s : Reward} : r.IsShare recipient amount s ↔ r.share recipient ⟨amount, h⟩ = s := by
  constructor
  · intro hs
    obtain ⟨taskId, claimant, ⟨paid, denom⟩, timestamp, txHash⟩ := s
    obtain ⟨rfl, rfl, hamount, rfl, rfl, rfl⟩ := hs
    obtain rfl : paid = ⟨amount, h⟩ := Amount.ext hamount
    rfl
  · rintro rfl
    exact ⟨rfl, rfl, rfl, rfl, rfl, rfl⟩

variable {r : Reward} {total : Nat}

/-- The first recipient's share stands before the others', unless nothing is due. -/
theorem shares_cons {recipient : String} {weight : Count} {rest : List (String × Count)}
    (hfits : r.amount.amount.toNat * weight.toNat < Amount.size)
    (hdue : r.due total weight < Amount.size) :
    r.shares total ((recipient, weight) :: rest)
      = (r.shares total rest).map fun others =>
          if r.due total weight = 0 then others
          else r.share recipient ⟨r.due total weight, hdue⟩ :: others := by
  rw [shares, dif_pos hfits]
  cases r.shares total rest with
  | error refusal => rfl
  | ok others => exact (apply_ite Except.ok _ _ _).symm

theorem due_lt {weight : Count} (hfits : r.amount.amount.toNat * weight.toNat < Amount.size) :
    r.due total weight < Amount.size :=
  Nat.lt_of_le_of_lt (Nat.div_le_self _ _) hfits

/-- The split of a list goes through when every product fits the range, and
then pays whoever is due something. -/
theorem shares_eq_ok {pairs : List (String × Count)} {out : List Reward} :
    r.shares total pairs = .ok out
      ↔ (∀ p ∈ pairs, r.amount.amount.toNat * p.2.toNat < Amount.size)
        ∧ List.Forall₂ (fun p s => r.IsShare p.1 (r.due total p.2) s)
          (pairs.filter fun p => decide (0 < r.due total p.2)) out := by
  induction pairs generalizing out with
  | nil =>
      rw [shares]
      simp [eq_comm]
  | cons p rest ih =>
      obtain ⟨recipient, weight⟩ := p
      rw [List.forall_mem_cons, and_assoc]
      by_cases hfits : r.amount.amount.toNat * weight.toNat < Amount.size
      · rw [shares_cons hfits (due_lt hfits), map_eq_ok, and_iff_right hfits]
        by_cases hzero : r.due total weight = 0
        · simp [hzero, ih]
        · rw [List.filter_cons_of_pos (by simpa using Nat.pos_of_ne_zero hzero),
            List.forall₂_cons_left_iff]
          simp only [if_neg hzero, ih]
          constructor
          · rintro ⟨others, ⟨hrest, hothers⟩, rfl⟩
            exact ⟨hrest, _, others, (isShare_iff (due_lt hfits)).mpr rfl, hothers, rfl⟩
          · rintro ⟨hrest, s, others, hs, hothers, rfl⟩
            have hshare := (isShare_iff (due_lt hfits)).mp hs
            exact ⟨others, ⟨hrest, hothers⟩, congrArg (· :: others) hshare⟩
      · rw [shares, dif_neg hfits]
        simp [hfits]

/-- It is broken off when some product does not fit. -/
theorem shares_eq_error {pairs : List (String × Count)} {refusal : Refusal} :
    r.shares total pairs = .error refusal
      ↔ refusal = .splitOverflow
        ∧ ∃ p ∈ pairs, Amount.size ≤ r.amount.amount.toNat * p.2.toNat := by
  induction pairs with
  | nil => simp [shares]
  | cons p rest ih =>
      obtain ⟨recipient, weight⟩ := p
      rw [List.exists_mem_cons_iff]
      by_cases hfits : r.amount.amount.toNat * weight.toNat < Amount.size
      · rw [shares_cons hfits (due_lt hfits), map_eq_error, ih,
          or_iff_right (Nat.not_le_of_lt hfits)]
      · rw [shares, dif_neg hfits]
        simp [Nat.not_lt.mp hfits, eq_comm]

/-! ## Sums -/

theorem totalWeight_le (weights : List Count) :
    totalWeight weights ≤ weights.length * UInt64.size := by
  induction weights with
  | nil => exact Nat.zero_le _
  | cons weight rest ih =>
      have hweight : weight.toNat < UInt64.size := weight.toNat_lt_size
      rw [totalWeight, List.length_cons, Nat.succ_mul]
      omega

/-- Fewer than 2⁶⁴ weights add up to an amount. -/
theorem totalWeight_lt {weights : List Count} (h : weights.length < UInt64.size) :
    totalWeight weights < Amount.size :=
  calc totalWeight weights
      ≤ weights.length * UInt64.size := totalWeight_le weights
    _ < UInt64.size * UInt64.size := Nat.mul_lt_mul_of_pos_right h (by decide)
    _ = Amount.size := rfl

/-- What is due altogether is what is paid: whoever is left out was due nothing. -/
theorem totalAmount_eq {pairs : List (String × Count)} {out : List Reward}
    (h : List.Forall₂ (fun p s => r.IsShare p.1 (r.due total p.2) s)
      (pairs.filter fun p => decide (0 < r.due total p.2)) out) :
    totalAmount out = r.totalDue total (pairs.map Prod.snd) := by
  induction pairs generalizing out with
  | nil =>
      cases h
      rfl
  | cons p rest ih =>
      rw [List.map_cons, totalDue]
      by_cases hzero : r.due total p.2 = 0
      · rw [List.filter_cons_of_neg (by simp [hzero])] at h
        rw [ih h, hzero, Nat.zero_add]
      · rw [List.filter_cons_of_pos (by simpa using Nat.pos_of_ne_zero hzero)] at h
        cases h with
        | cons hs hrest => rw [totalAmount, hs.amount, ih hrest]

/-- Rounding down never makes more of the reward than there is. -/
theorem totalDue_mul_le (weights : List Count) :
    r.totalDue total weights * total ≤ r.amount.amount.toNat * totalWeight weights := by
  induction weights with
  | nil => simp [totalDue]
  | cons weight rest ih =>
      have hdue : r.due total weight * total ≤ r.amount.amount.toNat * weight.toNat :=
        Nat.div_mul_le_self _ _
      rw [totalDue, totalWeight, Nat.add_mul, Nat.mul_add]
      exact Nat.add_le_add hdue ih

theorem toNat_of_not_pos {weight : Count} (h : ¬0 < weight) : weight.toNat = 0 :=
  Nat.eq_zero_of_not_pos fun hpos => h (UInt64.lt_iff_toNat_lt.mpr hpos)

/-- Each weight that is not zero loses less than the total in its division. -/
theorem mul_totalWeight_le (htotal : 0 < total) (weights : List Count) :
    r.amount.amount.toNat * totalWeight weights
      ≤ r.totalDue total weights * total
        + (total - 1) * weights.countP fun w => decide (0 < w) := by
  induction weights with
  | nil => simp [totalWeight]
  | cons weight rest ih =>
      rw [totalDue, totalWeight, Nat.add_mul, Nat.mul_add, List.countP_cons]
      by_cases hweight : 0 < weight
      · have hdue : r.amount.amount.toNat * weight.toNat
            ≤ r.due total weight * total + (total - 1) := by
          have hsplit := Nat.div_add_mod' (r.amount.amount.toNat * weight.toNat) total
          have hrest := Nat.mod_lt (r.amount.amount.toNat * weight.toNat) htotal
          rw [due]
          omega
        rw [if_pos (by simpa using hweight), Nat.mul_add, Nat.mul_one]
        omega
      · rw [if_neg (by simpa using hweight), due, toNat_of_not_pos hweight, Nat.mul_zero,
          Nat.zero_div, Nat.add_zero]
        omega

/-- Some recipient has a weight when the weights do not add up to nothing. -/
theorem countP_pos_of_totalWeight_pos {weights : List Count} (h : 0 < totalWeight weights) :
    0 < weights.countP fun w => decide (0 < w) := by
  induction weights with
  | nil => exact absurd h (Nat.lt_irrefl 0)
  | cons weight rest ih =>
      rw [List.countP_cons]
      by_cases hweight : 0 < weight
      · rw [if_pos (by simpa using hweight)]
        exact Nat.succ_pos _
      · rw [totalWeight, toNat_of_not_pos hweight, Nat.zero_add] at h
        exact Nat.add_pos_left (ih h) _

/-! ## The whole split -/

theorem due_mono (r : Reward) (total : Nat) {v w : Count} (h : v ≤ w) :
    r.due total v ≤ r.due total w :=
  Nat.div_le_div_right (Nat.mul_le_mul_left _ (UInt64.le_iff_toNat_le.mp h))

theorem exists_mem_of_forall₂ {α β : Type} {R : α → β → Prop} {xs : List α} {ys : List β}
    (h : List.Forall₂ R xs ys) :
    (∀ x ∈ xs, ∃ y ∈ ys, R x y) ∧ ∀ y ∈ ys, ∃ x ∈ xs, R x y := by
  induction h with
  | nil => simp
  | cons hxy _ ih =>
      constructor
      · rintro x (_ | ⟨_, hx⟩)
        · exact ⟨_, List.mem_cons_self, hxy⟩
        · obtain ⟨y, hy, hR⟩ := ih.1 x hx
          exact ⟨y, List.mem_cons_of_mem _ hy, hR⟩
      · rintro y (_ | ⟨_, hy⟩)
        · exact ⟨_, List.mem_cons_self, hxy⟩
        · obtain ⟨x, hx, hR⟩ := ih.2 y hy
          exact ⟨x, List.mem_cons_of_mem _ hx, hR⟩

theorem sharedOut_of_shares {recipients : List String} {weights : List Count} {out : List Reward}
    (hlength : recipients.length = weights.length) (htotal : 0 < totalWeight weights)
    (hout : r.shares (totalWeight weights) (recipients.zip weights) = .ok out) :
    r.SharedOut recipients weights out := by
  obtain ⟨-, hshares⟩ := shares_eq_ok.mp hout
  have hamount : totalAmount out = r.totalDue (totalWeight weights) weights := by
    rw [totalAmount_eq hshares, List.map_snd_zip (Nat.le_of_eq hlength.symm)]
  constructor
  case shares => exact hshares
  case within =>
    refine Nat.le_of_mul_le_mul_right ?_ htotal
    rw [hamount]
    exact totalDue_mul_le weights
  case rest =>
    have hcount := countP_pos_of_totalWeight_pos htotal
    refine Nat.lt_of_mul_lt_mul_right (a := totalWeight weights) ?_
    calc r.amount.amount.toNat * totalWeight weights
        ≤ totalAmount out * totalWeight weights
          + (totalWeight weights - 1) * weights.countP fun w => decide (0 < w) := by
          rw [hamount]
          exact mul_totalWeight_le htotal weights
      _ < totalAmount out * totalWeight weights
          + totalWeight weights * weights.countP fun w => decide (0 < w) :=
          Nat.add_lt_add_left
            (Nat.mul_lt_mul_of_pos_right (Nat.sub_lt htotal Nat.one_pos) hcount) _
      _ = (totalAmount out + weights.countP fun w => decide (0 < w)) * totalWeight weights := by
          rw [Nat.add_mul, Nat.mul_comm (totalWeight weights)]
  case fair =>
    intro p _ q hq hpq s hs hpaid
    obtain ⟨hforward, hback⟩ := exists_mem_of_forall₂ hshares
    obtain ⟨p', hp', hother⟩ := hback s hs
    have hpositive : 0 < r.due (totalWeight weights) p'.2 := by
      simpa using (List.mem_filter.mp hp').2
    have hle : s.amount.amount.toNat ≤ r.due (totalWeight weights) q.2 :=
      hpaid.amount ▸ r.due_mono _ hpq
    have hdue : 0 < r.due (totalWeight weights) q.2 :=
      Nat.lt_of_lt_of_le (hother.amount ▸ hpositive) hle
    obtain ⟨u, hu, hshare⟩ := hforward q (List.mem_filter.mpr ⟨hq, by simpa using hdue⟩)
    refine ⟨u, hu, hshare, ?_⟩
    rw [Amount.le_def, hshare.amount]
    exact hle

variable {recipients : List String} {weights : List Count}

theorem split_of_length_ne (h : recipients.length ≠ weights.length) :
    r.split recipients weights = .error (.splitMismatch recipients.length weights.length) := by
  rw [split, if_pos h]

theorem split_of_length_eq (h : recipients.length = weights.length) :
    r.split recipients weights
      = if totalWeight weights = 0 then .ok []
        else r.shares (totalWeight weights) (recipients.zip weights) := by
  rw [split, if_neg (not_not_intro h)]

theorem exists_weight_iff (h : recipients.length = weights.length) {P : Count → Prop} :
    (∃ p ∈ recipients.zip weights, P p.2) ↔ ∃ w ∈ weights, P w := by
  have hweights := List.map_snd_zip (Nat.le_of_eq h.symm)
  constructor
  · rintro ⟨p, hp, hP⟩
    exact ⟨p.2, hweights ▸ List.mem_map_of_mem hp, hP⟩
  · rintro ⟨w, hw, hP⟩
    rw [← hweights] at hw
    obtain ⟨p, hp, rfl⟩ := List.mem_map.mp hw
    exact ⟨p, hp, hP⟩

/-- Lists of one length are refused for nothing but an overflow. -/
theorem split_eq_error (h : recipients.length = weights.length) {refusal : Refusal} :
    r.split recipients weights = .error refusal
      ↔ refusal = .splitOverflow ∧ 0 < totalWeight weights
        ∧ ∃ w ∈ weights, Amount.size ≤ r.amount.amount.toNat * w.toNat := by
  rw [split_of_length_eq h]
  by_cases hzero : totalWeight weights = 0
  · simp [hzero]
  · rw [if_neg hzero, shares_eq_error,
      exists_weight_iff h (P := fun w => Amount.size ≤ r.amount.amount.toNat * w.toNat),
      and_iff_right (Nat.pos_of_ne_zero hzero)]

/-- Splitting by fewer than 2⁶⁴ weights. Adding the weights up never leaves
the range of an amount. The split is refused for its lengths exactly when
they differ. With lists of one length, no weight at all shares out nothing,
else a product out of range is an overflow, and else the reward is shared out. -/
theorem split_conserves (r : Reward) (recipients : List String) (weights : List Count)
    (hsize : weights.length < UInt64.size) :
    (∀ front, front <+: weights → totalWeight front < Amount.size)
    ∧ (∀ m n, r.split recipients weights = .error (.splitMismatch m n)
      ↔ recipients.length ≠ weights.length ∧ m = recipients.length ∧ n = weights.length)
    ∧ (recipients.length = weights.length →
      (totalWeight weights = 0 → r.split recipients weights = .ok [])
      ∧ (r.split recipients weights = .error .splitOverflow
        ↔ 0 < totalWeight weights
          ∧ ∃ w ∈ weights, Amount.size ≤ r.amount.amount.toNat * w.toNat)
      ∧ (0 < totalWeight weights →
        (∀ w ∈ weights, r.amount.amount.toNat * w.toNat < Amount.size) →
        ∃ out, r.split recipients weights = .ok out ∧ r.SharedOut recipients weights out)) := by
  refine ⟨?_, ?_, ?_⟩
  · intro front hfront
    exact totalWeight_lt (Nat.lt_of_le_of_lt hfront.length_le hsize)
  · intro m n
    by_cases hlength : recipients.length = weights.length
    · simp [split_eq_error hlength, hlength]
    · simp [split_of_length_ne hlength, hlength, eq_comm]
  · intro hlength
    refine ⟨?_, ?_, ?_⟩
    · intro hzero
      rw [split_of_length_eq hlength, if_pos hzero]
    · rw [split_eq_error hlength, and_iff_right rfl]
    · intro htotal hfits
      cases hout : r.split recipients weights with
      | error refusal =>
          obtain ⟨-, -, w, hw, hlarge⟩ := (split_eq_error hlength).mp hout
          exact absurd (hfits w hw) (Nat.not_lt.mpr hlarge)
      | ok out =>
          rw [split_of_length_eq hlength, if_neg (Nat.ne_of_gt htotal)] at hout
          exact ⟨out, rfl, sharedOut_of_shares hlength htotal hout⟩

end BountyBoard.Reward

namespace BountyBoard

namespace Sample

def prize : Reward := ⟨0, "ada", ⟨⟨100, by decide⟩, "stake"⟩, 12, "tx-1"⟩

/-- The largest amount there is. -/
def hoard : Reward := { prize with amount := ⟨⟨Amount.size - 1, by decide⟩, "stake"⟩ }

end Sample

namespace Reward

/-- A hundred by the weights two, zero, one and four: one is lost, and the
weight of zero gets nothing. Twice the largest amount is out of range. -/
theorem split_conserves_sample :
    (∃ out, Sample.prize.split ["ada", "ben", "cleo", "dan"] [2, 0, 1, 4] = .ok out
      ∧ Sample.prize.SharedOut ["ada", "ben", "cleo", "dan"] [2, 0, 1, 4] out
      ∧ out.map (fun s => (s.claimant, s.amount.amount.toNat))
        = [("ada", 28), ("cleo", 14), ("dan", 57)])
    ∧ Sample.hoard.split ["ada", "ben"] [1, 2] = .error .splitOverflow
    ∧ Sample.hoard.split ["ada"] [1, 2] = .error (.splitMismatch 1 2) := by
  refine ⟨?_, ?_, ?_⟩
  · have hfits : ∀ w ∈ ([2, 0, 1, 4] : List Count),
        Sample.prize.amount.amount.toNat * w.toNat < Amount.size := by
      simp only [List.forall_mem_cons]
      exact ⟨by decide, by decide, by decide, by decide, fun w hw => by cases hw⟩
    obtain ⟨out, hout, hshared⟩ :=
      ((split_conserves Sample.prize ["ada", "ben", "cleo", "dan"] [2, 0, 1, 4] (by decide)).2.2
        rfl).2.2 (by decide) hfits
    refine ⟨out, hout, hshared, ?_⟩
    have hpaid : (Sample.prize.split ["ada", "ben", "cleo", "dan"] [2, 0, 1, 4]).map
        (fun out => out.map fun s => (s.claimant, s.amount.amount.toNat))
          = .ok [("ada", 28), ("cleo", 14), ("dan", 57)] := rfl
    rw [hout] at hpaid
    exact Except.ok.inj hpaid
  · refine ((split_conserves Sample.hoard ["ada", "ben"] [1, 2] (by decide)).2.2 rfl).2.1.mpr ?_
    exact ⟨by decide, 2, by decide, by decide⟩
  · refine ((split_conserves Sample.hoard ["ada"] [1, 2] (by decide)).2.1 1 2).mpr ?_
    decide

end Reward

end BountyBoard

import BountyBoard.Proofs.Address
import BountyBoard.Task.Validity

/-!
# What makes a task valid

The rules for tasks are of two kinds. Some are about the task alone, and a
task that keeps these is `WellFormed` whatever the parameters are. The
others are limits that the parameters set, and a task within these `Fits`
the parameters. A task is valid exactly when it does both (`valid_iff_fits`).

So what a change of the parameters can do to a task that is valid is to
leave it outside the limits. Parameters that only widen the limits
(`Params.WidensTo`) never do (`Fits.mono`).
-/

namespace BountyBoard

/-- The parameters `q` allow every bounty and every text that `p` allow: the
denomination is the same and no limit is narrower. -/
structure Params.WidensTo (p q : Params) : Prop where
  denom : q.denom = p.denom
  minBounty : q.minBounty.amount ≤ p.minBounty.amount
  maxBounty : p.maxBounty.amount ≤ q.maxBounty.amount
  title : p.maxTitleLength ≤ q.maxTitleLength
  description : p.maxDescriptionLength ≤ q.maxDescriptionLength

theorem Params.widensTo_iff {p q : Params} :
    p.WidensTo q ↔ q.denom = p.denom ∧ q.minBounty.amount ≤ p.minBounty.amount
      ∧ p.maxBounty.amount ≤ q.maxBounty.amount ∧ p.maxTitleLength ≤ q.maxTitleLength
      ∧ p.maxDescriptionLength ≤ q.maxDescriptionLength :=
  ⟨fun ⟨hd, hmin, hmax, ht, hdesc⟩ => ⟨hd, hmin, hmax, ht, hdesc⟩,
    fun ⟨hd, hmin, hmax, ht, hdesc⟩ => ⟨hd, hmin, hmax, ht, hdesc⟩⟩

instance (p q : Params) : Decidable (p.WidensTo q) :=
  decidable_of_iff' _ Params.widensTo_iff

namespace Task

/-- A task that keeps the rules which no parameters can change. -/
structure WellFormed (t : Task) : Prop where
  title : Text.trim t.title ≠ ""
  description : Text.trim t.description ≠ ""
  bounty : 0 < t.bounty.amount.toNat
  status : t.status ≠ .undefined
  creator : Address.IsText t.creator
  claimant : ∀ who, t.claimant = some who → Address.IsText who
  approver : ∀ who, t.approver = some who → Address.IsText who
  created : 0 < t.createdAt
  updated : t.createdAt ≤ t.updatedAt

/-- A task within the limits that the parameters set. -/
structure Fits (p : Params) (t : Task) : Prop where
  title : t.title.length ≤ p.maxTitleLength.toNat
  description : t.description.length ≤ p.maxDescriptionLength.toNat
  denom : t.bounty.denom = p.denom
  min : p.minBounty.amount ≤ t.bounty.amount
  max : t.bounty.amount ≤ p.maxBounty.amount

theorem Fits.mono {p q : Params} {t : Task} (h : t.Fits p) (hwide : p.WidensTo q) : t.Fits q where
  title := Nat.le_trans h.title (UInt64.le_iff_toNat_le.mp hwide.title)
  description := Nat.le_trans h.description (UInt64.le_iff_toNat_le.mp hwide.description)
  denom := h.denom.trans hwide.denom.symm
  min := Nat.le_trans hwide.minBounty h.min
  max := Nat.le_trans h.max hwide.maxBounty

/-! ## The rules one by one

Each check is a chain of conditions that a value has to fail, one after the
other. -/

theorem ite_some_eq_none {α : Type} {c : Prop} [Decidable c] {a : α} {o : Option α} :
    (if c then some a else o) = none ↔ ¬c ∧ o = none := by
  by_cases h : c <;> simp [h]

theorem not_isBlankText_iff {s : String} : ¬Text.isBlankText s = true ↔ Text.trim s ≠ "" := by
  rw [Text.trim, Ne, String.ofList_eq_empty_iff, Text.trimList_eq_nil_iff, Text.isBlankText]

theorem titleFault?_eq_none {p : Params} {title : String} :
    titleFault? p title = none
      ↔ Text.trim title ≠ "" ∧ title.length ≤ p.maxTitleLength.toNat := by
  simp only [titleFault?, ite_some_eq_none, not_isBlankText_iff, Nat.not_lt, and_true]

theorem descriptionFault?_eq_none {p : Params} {description : String} :
    descriptionFault? p description = none
      ↔ Text.trim description ≠ "" ∧ description.length ≤ p.maxDescriptionLength.toNat := by
  simp only [descriptionFault?, ite_some_eq_none, not_isBlankText_iff, Nat.not_lt, and_true]

theorem bountyFault?_eq_none {p : Params} {bounty : Coin} :
    bountyFault? p bounty = none
      ↔ 0 < bounty.amount.toNat ∧ bounty.denom = p.denom
        ∧ p.minBounty.amount ≤ bounty.amount ∧ bounty.amount ≤ p.maxBounty.amount := by
  simp only [bountyFault?, ite_some_eq_none, Coin.isZero, beq_iff_eq, Amount.lt_def,
    Amount.le_def, Nat.not_lt, Decidable.not_not, Nat.pos_iff_ne_zero, and_true]

theorem statusFault?_eq_none {status : Status} :
    statusFault? status = none ↔ status ≠ .undefined := by
  simp only [statusFault?, ite_some_eq_none, and_true]

theorem addressFault?_eq_none {s : String} : addressFault? s = none ↔ Address.IsText s := by
  rw [addressFault?, Address.IsText]
  cases Address.ofText s <;> simp

/-- The check for an empty creator decides nothing: no address is empty. -/
theorem creatorFault?_eq_none {creator : String} :
    creatorFault? creator = none ↔ Address.IsText creator := by
  rw [creatorFault?, ite_some_eq_none, Option.map_eq_none_iff, addressFault?_eq_none]
  refine ⟨And.right, fun h => ⟨fun hempty => ?_, h⟩⟩
  obtain ⟨a, ha⟩ := h
  rw [Address.ofText, if_pos hempty] at ha
  cases ha

theorem timesFault?_eq_none {createdAt updatedAt : Time} :
    timesFault? createdAt updatedAt = none ↔ 0 < createdAt ∧ createdAt ≤ updatedAt := by
  simp only [timesFault?, ite_some_eq_none, Int64.not_le, Int64.not_lt, and_true]

theorem claimantFault?_eq_none {claimant : Option String} :
    claimantFault? claimant = none ↔ ∀ who, claimant = some who → Address.IsText who := by
  simp only [claimantFault?, Option.bind_eq_none_iff, Option.map_eq_none_iff,
    addressFault?_eq_none]

theorem approverFault?_eq_none {approver : Option String} :
    approverFault? approver = none ↔ ∀ who, approver = some who → Address.IsText who := by
  simp only [approverFault?, Option.bind_eq_none_iff, Option.map_eq_none_iff,
    addressFault?_eq_none]

/-- A task is valid when it is well formed and within the limits. -/
theorem valid_iff_fits {p : Params} {t : Task} : t.Valid p ↔ t.WellFormed ∧ t.Fits p := by
  rw [valid_iff]
  constructor
  · intro h
    obtain ⟨htitle, hlength⟩ := titleFault?_eq_none.mp (h .title)
    obtain ⟨hdescription, hsize⟩ := descriptionFault?_eq_none.mp (h .description)
    obtain ⟨hpositive, hdenom, hmin, hmax⟩ := bountyFault?_eq_none.mp (h .bounty)
    obtain ⟨hcreated, hupdated⟩ := timesFault?_eq_none.mp (h .times)
    exact
      ⟨{ title := htitle
         description := hdescription
         bounty := hpositive
         status := statusFault?_eq_none.mp (h .status)
         creator := creatorFault?_eq_none.mp (h .creator)
         claimant := claimantFault?_eq_none.mp (h .claimant)
         approver := approverFault?_eq_none.mp (h .approver)
         created := hcreated
         updated := hupdated },
        ⟨hlength, hsize, hdenom, hmin, hmax⟩⟩
  · rintro ⟨hform, hfits⟩ aspect
    cases aspect with
    | title => exact titleFault?_eq_none.mpr ⟨hform.title, hfits.title⟩
    | description => exact descriptionFault?_eq_none.mpr ⟨hform.description, hfits.description⟩
    | bounty => exact bountyFault?_eq_none.mpr ⟨hform.bounty, hfits.denom, hfits.min, hfits.max⟩
    | status => exact statusFault?_eq_none.mpr hform.status
    | creator => exact creatorFault?_eq_none.mpr hform.creator
    | times => exact timesFault?_eq_none.mpr ⟨hform.created, hform.updated⟩
    | claimant => exact claimantFault?_eq_none.mpr hform.claimant
    | approver => exact approverFault?_eq_none.mpr hform.approver

/-- Wider limits leave a valid task valid. -/
theorem Valid.mono {p q : Params} {t : Task} (h : t.Valid p) (hwide : p.WidensTo q) :
    t.Valid q :=
  valid_iff_fits.mpr ((valid_iff_fits.mp h).imp_right fun hfits => hfits.mono hwide)

/-- A valid task stays valid on its way through the statuses, as long as
those who come into it have addresses and the time is not before its creation. -/
theorem Valid.moved {p : Params} {t : Task} (h : t.Valid p) {status : Status}
    {claimant approver : Option String} {finding : Option Finding} {now : Time}
    (hstatus : status ≠ .undefined)
    (hclaimant : ∀ who, claimant = some who → Address.IsText who)
    (happrover : ∀ who, approver = some who → Address.IsText who)
    (hlater : t.createdAt ≤ now) :
    Valid p { t with
      status := status, claimant := claimant, finding := finding, approver := approver,
      updatedAt := now } := by
  obtain ⟨hform, hfits⟩ := valid_iff_fits.mp h
  refine valid_iff_fits.mpr ⟨?_, { hfits with }⟩
  exact
    { hform with
      status := hstatus
      claimant := hclaimant
      approver := happrover
      updated := hlater }

end Task

/-- Evidence names what was done, in a way that is allowed, at a time after
the epoch. -/
theorem Evidence.fault?_eq_none {p : Params} {e : Evidence} :
    e.fault? p = none ↔ Text.trim e.hash ≠ "" ∧ p.allows e.kind = true ∧ 0 < e.timestamp := by
  simp only [fault?, Task.ite_some_eq_none, Task.not_isBlankText_iff, Bool.not_eq_true',
    Bool.not_eq_false, Int64.not_le, and_true]

end BountyBoard

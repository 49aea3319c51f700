import BountyBoard.Proofs.History
import BountyBoard.Proofs.Validity

/-!
# Which fault is reported

A task can break fifteen rules (`Breaks`), and the fault that is reported is
the first of those that it breaks: the rules stand in the order of their
subjects, and those about one subject in an order of their own
(`fault?_eq_some`).

No rule looks at more than one subject. So when a valid task is changed in
one place, what is then wrong with it is about that place, and the other
rules need not be looked at again (`faultIn_apply`). The two times are one
subject because there the rule is about both of them.
-/

namespace BountyBoard.Task

/-! ## The rules -/

/-- The task breaks the rule that the fault is about. -/
inductive Breaks (p : Params) (t : Task) : Fault → Prop where
  | emptyTitle (h : Text.trim t.title = "") : Breaks p t .emptyTitle
  | titleTooLong (h : p.maxTitleLength.toNat < t.title.length) :
      Breaks p t (.titleTooLong p.maxTitleLength.toNat t.title.length)
  | emptyDescription (h : Text.trim t.description = "") : Breaks p t .emptyDescription
  | descriptionTooLong (h : p.maxDescriptionLength.toNat < t.description.length) :
      Breaks p t (.descriptionTooLong p.maxDescriptionLength.toNat t.description.length)
  | zeroBounty (h : t.bounty.amount.toNat = 0) : Breaks p t .zeroBounty
  | wrongDenom (h : t.bounty.denom ≠ p.denom) : Breaks p t (.wrongDenom p.denom t.bounty.denom)
  | bountyBelowMin (h : t.bounty.amount < p.minBounty.amount) :
      Breaks p t (.bountyBelowMin p.minBounty.amount t.bounty.amount)
  | bountyAboveMax (h : p.maxBounty.amount < t.bounty.amount) :
      Breaks p t (.bountyAboveMax p.maxBounty.amount t.bounty.amount)
  | undefinedStatus (h : t.status = .undefined) : Breaks p t .undefinedStatus
  | emptyCreator (h : t.creator = "") : Breaks p t .emptyCreator
  | badCreator {fault : Address.Fault} (h : Address.ofText t.creator = .error fault) :
      Breaks p t (.badCreator fault)
  | badCreatedAt (h : t.createdAt ≤ 0) : Breaks p t (.badCreatedAt t.createdAt)
  | updatedBeforeCreated (h : t.updatedAt < t.createdAt) :
      Breaks p t (.updatedBeforeCreated t.createdAt t.updatedAt)
  | badClaimant {who : String} {fault : Address.Fault} (hclaimant : t.claimant = some who)
      (h : Address.ofText who = .error fault) : Breaks p t (.badClaimant fault)
  | badApprover {who : String} {fault : Address.Fault} (happrover : t.approver = some who)
      (h : Address.ofText who = .error fault) : Breaks p t (.badApprover fault)

/-- The place of a subject in the order of the rules. -/
def Aspect.place : Aspect → Nat
  | .title => 0
  | .description => 1
  | .bounty => 2
  | .status => 3
  | .creator => 4
  | .times => 5
  | .claimant => 6
  | .approver => 7

/-- The place of a rule among those about its subject. -/
def Fault.step : Fault → Nat
  | .emptyTitle | .emptyDescription | .zeroBounty | .undefinedStatus | .emptyCreator
  | .badCreatedAt .. | .badClaimant .. | .badApprover .. => 0
  | .titleTooLong .. | .descriptionTooLong .. | .wrongDenom .. | .badCreator ..
  | .updatedBeforeCreated .. => 1
  | .bountyBelowMin .. => 2
  | .bountyAboveMax .. => 3

/-- The order of the rules. -/
def Fault.Precedes (f other : Fault) : Prop :=
  f.aspect.place < other.aspect.place ∨ f.aspect = other.aspect ∧ f.step < other.step

theorem Fault.Precedes.asymm {f other : Fault} (h : f.Precedes other) : ¬other.Precedes f := by
  rintro (hplace | ⟨haspect, hstep⟩) <;> rcases h with h | ⟨h, h'⟩
  · omega
  · rw [h] at hplace
    omega
  · rw [haspect] at h
    omega
  · omega

theorem ascending_all : Aspect.all.Pairwise fun a b => a.place < b.place := by decide

variable {p : Params} {t : Task}

/-! ## One subject -/

theorem ite_some_eq_some {α : Type} {c : Prop} [Decidable c] {a b : α} {o : Option α} :
    (if c then some a else o) = some b ↔ c ∧ a = b ∨ ¬c ∧ o = some b := by
  by_cases h : c <;> simp [h]

theorem addressFault?_eq_some {s : String} {fault : Address.Fault} :
    addressFault? s = some fault ↔ Address.ofText s = .error fault := by
  rw [addressFault?]
  cases Address.ofText s <;> simp

theorem isBlankText_iff {s : String} : Text.isBlankText s = true ↔ Text.trim s = "" :=
  not_iff_not.mp not_isBlankText_iff

/-- A fault about a subject is a broken rule about it. -/
theorem breaks_of_faultIn {a : Aspect} {f : Fault} (h : faultIn p t a = some f) :
    f.aspect = a ∧ Breaks p t f := by
  cases a with
  | title =>
      simp only [faultIn, titleFault?, ite_some_eq_some, isBlankText_iff] at h
      rcases h with ⟨hblank, rfl⟩ | ⟨-, ⟨hlong, rfl⟩ | ⟨-, h⟩⟩
      · exact ⟨rfl, .emptyTitle hblank⟩
      · exact ⟨rfl, .titleTooLong hlong⟩
      · cases h
  | description =>
      simp only [faultIn, descriptionFault?, ite_some_eq_some, isBlankText_iff] at h
      rcases h with ⟨hblank, rfl⟩ | ⟨-, ⟨hlong, rfl⟩ | ⟨-, h⟩⟩
      · exact ⟨rfl, .emptyDescription hblank⟩
      · exact ⟨rfl, .descriptionTooLong hlong⟩
      · cases h
  | bounty =>
      simp only [faultIn, bountyFault?, ite_some_eq_some, Coin.isZero, beq_iff_eq] at h
      rcases h with ⟨hzero, rfl⟩ | ⟨-, ⟨hdenom, rfl⟩ | ⟨-, ⟨hmin, rfl⟩ | ⟨-, ⟨hmax, rfl⟩ | ⟨-, h⟩⟩⟩⟩
      · exact ⟨rfl, .zeroBounty hzero⟩
      · exact ⟨rfl, .wrongDenom hdenom⟩
      · exact ⟨rfl, .bountyBelowMin hmin⟩
      · exact ⟨rfl, .bountyAboveMax hmax⟩
      · cases h
  | status =>
      simp only [faultIn, statusFault?, ite_some_eq_some] at h
      rcases h with ⟨hundefined, rfl⟩ | ⟨-, h⟩
      · exact ⟨rfl, .undefinedStatus hundefined⟩
      · cases h
  | creator =>
      simp only [faultIn, creatorFault?, ite_some_eq_some, String.isEmpty_iff,
        Option.map_eq_some_iff, addressFault?_eq_some] at h
      rcases h with ⟨hempty, rfl⟩ | ⟨-, fault, hbad, rfl⟩
      · exact ⟨rfl, .emptyCreator hempty⟩
      · exact ⟨rfl, .badCreator hbad⟩
  | times =>
      simp only [faultIn, timesFault?, ite_some_eq_some] at h
      rcases h with ⟨hcreated, rfl⟩ | ⟨-, ⟨hupdated, rfl⟩ | ⟨-, h⟩⟩
      · exact ⟨rfl, .badCreatedAt hcreated⟩
      · exact ⟨rfl, .updatedBeforeCreated hupdated⟩
      · cases h
  | claimant =>
      simp only [faultIn, claimantFault?, Option.bind_eq_some_iff, Option.map_eq_some_iff,
        addressFault?_eq_some] at h
      obtain ⟨who, hwho, fault, hbad, rfl⟩ := h
      exact ⟨rfl, .badClaimant hwho hbad⟩
  | approver =>
      simp only [faultIn, approverFault?, Option.bind_eq_some_iff, Option.map_eq_some_iff,
        addressFault?_eq_some] at h
      obtain ⟨who, hwho, fault, hbad, rfl⟩ := h
      exact ⟨rfl, .badApprover hwho hbad⟩

/-- Another rule that is looked at before is an earlier one. -/
theorem exists_ite_some {c : Prop} [Decidable c] {f other : Fault} {o : Option Fault}
    (hstep : f.step < other.step) (h : ∃ g, o = some g ∧ (other = g ∨ g.step < other.step)) :
    ∃ g, (if c then some f else o) = some g ∧ (other = g ∨ g.step < other.step) := by
  by_cases hc : c
  · exact ⟨f, if_pos hc, .inr hstep⟩
  · rwa [if_neg hc]

/-- If a rule about a subject is broken, there is a fault about the subject:
for this rule, or for one that is looked at before it. -/
theorem faultIn_of_breaks {other : Fault} (h : Breaks p t other) :
    ∃ f, faultIn p t other.aspect = some f ∧ (other = f ∨ f.step < other.step) := by
  cases h with
  | emptyTitle h => exact ⟨_, if_pos (isBlankText_iff.mpr h), .inl rfl⟩
  | titleTooLong h => exact exists_ite_some Nat.one_pos ⟨_, if_pos h, .inl rfl⟩
  | emptyDescription h => exact ⟨_, if_pos (isBlankText_iff.mpr h), .inl rfl⟩
  | descriptionTooLong h => exact exists_ite_some Nat.one_pos ⟨_, if_pos h, .inl rfl⟩
  | zeroBounty h => exact ⟨_, if_pos (beq_iff_eq.mpr h), .inl rfl⟩
  | wrongDenom h => exact exists_ite_some Nat.one_pos ⟨_, if_pos h, .inl rfl⟩
  | bountyBelowMin h =>
      refine exists_ite_some Nat.two_pos (exists_ite_some Nat.one_lt_two ?_)
      exact ⟨_, if_pos h, .inl rfl⟩
  | bountyAboveMax h =>
      refine exists_ite_some (by simp [Fault.step]) (exists_ite_some (by simp [Fault.step])
        (exists_ite_some (by simp [Fault.step]) ?_))
      exact ⟨_, if_pos h, .inl rfl⟩
  | undefinedStatus h => exact ⟨_, if_pos h, .inl rfl⟩
  | emptyCreator h => exact ⟨_, if_pos (String.isEmpty_iff.mpr h), .inl rfl⟩
  | badCreator h =>
      refine exists_ite_some Nat.one_pos ⟨_, ?_, .inl rfl⟩
      rw [addressFault?_eq_some.mpr h, Option.map_some]
  | badCreatedAt h => exact ⟨_, if_pos h, .inl rfl⟩
  | updatedBeforeCreated h => exact exists_ite_some Nat.one_pos ⟨_, if_pos h, .inl rfl⟩
  | badClaimant hwho h =>
      refine ⟨_, ?_, .inl rfl⟩
      rw [Fault.aspect, faultIn, claimantFault?, hwho, Option.bind_some,
        addressFault?_eq_some.mpr h, Option.map_some]
  | badApprover hwho h =>
      refine ⟨_, ?_, .inl rfl⟩
      rw [Fault.aspect, faultIn, approverFault?, hwho, Option.bind_some,
        addressFault?_eq_some.mpr h, Option.map_some]

/-! ## All subjects -/

/-- A fault that is reported is a broken rule, and no broken rule stands before it. -/
theorem first_of_fault? {f : Fault} (h : t.fault? p = some f) :
    Breaks p t f ∧ ∀ other, Breaks p t other → other = f ∨ f.Precedes other := by
  obtain ⟨before, a, after, hall, hfault, hnone⟩ := List.findSome?_eq_some_iff.mp h
  obtain ⟨rfl, hbreaks⟩ := breaks_of_faultIn hfault
  refine ⟨hbreaks, fun other hother => ?_⟩
  obtain ⟨g, hg, hstep⟩ := faultIn_of_breaks hother
  have hmem : other.aspect ∈ before ++ f.aspect :: after := by
    rw [← hall]
    cases other.aspect <;> decide
  rcases List.mem_append.mp hmem with hbefore | hmem
  · cases (hnone _ hbefore).symm.trans hg
  rcases List.mem_cons.mp hmem with haspect | hafter
  · rw [haspect, hfault] at hg
    obtain rfl := Option.some.inj hg
    exact hstep.imp_right fun hlt => .inr ⟨haspect.symm, hlt⟩
  · have hascending := ascending_all
    rw [hall, List.pairwise_append, List.pairwise_cons] at hascending
    exact .inr (.inl (hascending.2.1.1 _ hafter))

theorem fault?_eq_some {f : Fault} :
    t.fault? p = some f
      ↔ Breaks p t f ∧ ∀ other, Breaks p t other → other = f ∨ f.Precedes other := by
  refine ⟨first_of_fault?, fun ⟨hbreaks, hfirst⟩ => ?_⟩
  cases hg : t.fault? p with
  | none =>
      obtain ⟨g, hfault, -⟩ := faultIn_of_breaks hbreaks
      cases (valid_iff.mp hg f.aspect).symm.trans hfault
  | some g =>
      obtain ⟨hgbreaks, hgfirst⟩ := first_of_fault? hg
      rcases hfirst g hgbreaks with rfl | hfg
      · rfl
      rcases hgfirst f hbreaks with rfl | hgf
      · rfl
      · exact absurd hgf hfg.asymm

/-! ## Changes in one place -/

/-- Another value for one field of a task. -/
inductive Edit where
  | title (title : String)
  | description (description : String)
  | bounty (bounty : Coin)
  | status (status : Status)
  | creator (creator : String)
  | createdAt (createdAt : Time)
  | updatedAt (updatedAt : Time)
  | claimant (claimant : Option String)
  | approver (approver : Option String)
deriving Repr, DecidableEq

namespace Edit

def apply (t : Task) : Edit → Task
  | .title text => { t with title := text }
  | .description text => { t with description := text }
  | .bounty coin => { t with bounty := coin }
  | .status new => { t with status := new }
  | .creator who => { t with creator := who }
  | .createdAt time => { t with createdAt := time }
  | .updatedAt time => { t with updatedAt := time }
  | .claimant who => { t with claimant := who }
  | .approver who => { t with approver := who }

/-- What the rules for the field are about. -/
def aspect : Edit → Aspect
  | .title _ => .title
  | .description _ => .description
  | .bounty _ => .bounty
  | .status _ => .status
  | .creator _ => .creator
  | .createdAt _ | .updatedAt _ => .times
  | .claimant _ => .claimant
  | .approver _ => .approver

/-- The new value keeps the rules for its field, in a task that is valid
otherwise. -/
def Keeps (p : Params) (t : Task) : Edit → Prop
  | .title text => Text.trim text ≠ "" ∧ text.length ≤ p.maxTitleLength.toNat
  | .description text => Text.trim text ≠ "" ∧ text.length ≤ p.maxDescriptionLength.toNat
  | .bounty coin =>
      0 < coin.amount.toNat ∧ coin.denom = p.denom
        ∧ p.minBounty.amount ≤ coin.amount ∧ coin.amount ≤ p.maxBounty.amount
  | .status new => new ≠ .undefined
  | .creator who => Address.IsText who
  | .createdAt time => 0 < time ∧ time ≤ t.updatedAt
  | .updatedAt time => t.createdAt ≤ time
  | .claimant new => ∀ who, new = some who → Address.IsText who
  | .approver new => ∀ who, new = some who → Address.IsText who

/-- The rules about other subjects do not see the change. -/
theorem faultIn_apply {e : Edit} {a : Aspect} (h : a ≠ e.aspect) :
    faultIn p (e.apply t) a = faultIn p t a := by
  cases e <;> cases a <;> first | rfl | exact absurd rfl h

/-- Those about its own subject see whether the new value keeps them. -/
theorem faultIn_apply_eq_none (hvalid : t.Valid p) {e : Edit} :
    faultIn p (e.apply t) e.aspect = none ↔ e.Keeps p t := by
  cases e with
  | title => exact titleFault?_eq_none
  | description => exact descriptionFault?_eq_none
  | bounty => exact bountyFault?_eq_none
  | status => exact statusFault?_eq_none
  | creator => exact creatorFault?_eq_none
  | createdAt => exact timesFault?_eq_none
  | updatedAt =>
      -- the rule about the creation was kept before
      exact timesFault?_eq_none.trans (and_iff_right (valid_iff_fits.mp hvalid).1.created)
  | claimant => exact claimantFault?_eq_none
  | approver => exact approverFault?_eq_none

end Edit

theorem valid_apply_iff (hvalid : t.Valid p) {e : Edit} :
    (e.apply t).Valid p ↔ e.Keeps p t := by
  rw [← Edit.faultIn_apply_eq_none hvalid, valid_iff]
  refine ⟨fun h => h e.aspect, fun h a => ?_⟩
  by_cases ha : a = e.aspect
  · rw [ha, h]
  · rw [Edit.faultIn_apply ha, valid_iff.mp hvalid a]

theorem aspect_of_fault?_apply (hvalid : t.Valid p) {e : Edit} {f : Fault}
    (h : (e.apply t).fault? p = some f) : f.aspect = e.aspect := by
  obtain ⟨before, a, after, -, hfault, -⟩ := List.findSome?_eq_some_iff.mp h
  rw [(breaks_of_faultIn hfault).1]
  by_contra ha
  rw [Edit.faultIn_apply ha, valid_iff.mp hvalid a] at hfault
  cases hfault

/-- A valid task that is changed in one place stays valid exactly when the
new value keeps the rules for this place, and any fault is a broken rule for
this place. Of all the rules that a task breaks, the first one is reported. -/
theorem faults_located (p : Params) (t : Task) :
    (t.Valid p → ∀ e : Edit,
      ((e.apply t).Valid p ↔ e.Keeps p t)
      ∧ ∀ f, (e.apply t).fault? p = some f → f.aspect = e.aspect ∧ Breaks p (e.apply t) f)
    ∧ ∀ f, t.fault? p = some f
      ↔ Breaks p t f ∧ ∀ other, Breaks p t other → other = f ∨ f.Precedes other := by
  refine ⟨fun hvalid e => ⟨valid_apply_iff hvalid, fun f hf => ?_⟩, fun f => fault?_eq_some⟩
  exact ⟨aspect_of_fault?_apply hvalid hf, (first_of_fault? hf).1⟩

end BountyBoard.Task

namespace BountyBoard

namespace Sample

theorem valid_waiting : waiting.Valid .default :=
  Task.valid_iff_fits.mpr
    ⟨{ title := by decide
       description := by decide
       bounty := by decide
       status := by decide
       creator := isText_alice
       claimant := fun who h => Option.some.inj h ▸ isText_bob
       approver := fun who h => by cases h
       created := by decide
       updated := by decide },
      ⟨by decide, by decide, rfl, by decide, by decide⟩⟩

end Sample

namespace Task

/-- Put after its last change, the creation of the sample task is a fault
about times. With a blank title and no bounty, it is the title that is reported. -/
theorem faults_located_sample :
    Sample.waiting.Valid .default
    ∧ (∃ f, ((Edit.createdAt 12).apply Sample.waiting).fault? .default = some f
      ∧ f.aspect = .times)
    ∧ { Sample.waiting with title := " ", bounty := ⟨.zero, "stake"⟩ }.fault? .default
      = some .emptyTitle := by
  refine ⟨Sample.valid_waiting, ?_, ?_⟩
  · obtain ⟨hvalid, hlocated⟩ :=
      (faults_located .default Sample.waiting).1 Sample.valid_waiting (.createdAt 12)
    cases hf : ((Edit.createdAt 12).apply Sample.waiting).fault? .default with
    | none => exact absurd (hvalid.mp hf).2 (by decide)
    | some f => exact ⟨f, rfl, (hlocated f hf).1⟩
  · refine ((faults_located _ _).2 _).mpr ⟨.emptyTitle (by decide), fun other _ => ?_⟩
    cases other <;> simp [Fault.Precedes, Fault.aspect, Aspect.place, Fault.step]

end Task

end BountyBoard

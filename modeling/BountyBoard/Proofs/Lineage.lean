import BountyBoard.Proofs.Migration

/-!
# Boards that go on from one another

A board can be taken from store to store many times over, each time by its
snapshot, and every time its rewards stay behind. So the look for an earlier
reward, which guards an approval within one store, finds nothing in the next
one. What guards the payment there is the task: one that was paid for has come
to `approved` or `closed`, or is gone, and its id is used up. All of that
travels in the snapshot (`Spent`), and no event undoes it (`Spent.next`).

So no two boards of a line have paid for the same id, however often the line
moved (`paid_in_one_store`).
-/

namespace BountyBoard.Store

/-! ## Spent ids -/

theorem Spent.next {s : Store} {i : TaskId} (h : s.Spent i) (hs : s.Sound) (event : Event) :
    (s.next event).Spent i := by
  cases s.outcome event with
  | refused same =>
      rw [same]
      exact h
  | started _ blank => exact absurd h.used (hs.not_lt_nextId blank i)
  | accepted _ accepts later =>
      rw [later]
      exact h.accepted accepts

/-- An approval needs a task that waits for its review, and a spent one does not. -/
theorem Spent.rewards_accepted {s : Store} {i : TaskId} (h : s.Spent i)
    {authority sender : String} {m : Message} {now : Time} {e : Effect}
    (haccepts : s.Accepts authority sender now m e) :
    (s.commit e.writes).rewards.get? i = s.rewards.get? i := by
  cases haccepts with
  | approve _ found status =>
      refine Table.get?_insert_of_ne s.rewards ?_
      rintro rfl
      rcases h.settled found with hs | hs <;> cases status.symm.trans hs
  | _ => rfl

theorem Spent.rewards_next {s : Store} {i : TaskId} (h : s.Spent i) (event : Event) :
    (s.next event).rewards.get? i = s.rewards.get? i := by
  cases s.outcome event with
  | refused same => rw [same]
  | started _ _ _ _ later =>
      rw [later]
      rfl
  | accepted _ accepts later =>
      rw [later]
      exact h.rewards_accepted accepts

/-- The id is spent, but not by a reward of this store. -/
structure PaidElsewhere (s : Store) (i : TaskId) : Prop where
  spent : s.Spent i
  unpaid : s.rewards.get? i = none

theorem PaidElsewhere.afterAll {s : Store} {i : TaskId} (h : s.PaidElsewhere i) (hs : s.Sound)
    (events : List Event) : (s.afterAll events).PaidElsewhere i := by
  refine hs.afterAll_induction (P := fun u => u.PaidElsewhere i) h ?_
  intro u event _ hu hpaid
  exact ⟨hpaid.spent.next hu event, by rw [hpaid.spent.rewards_next event, hpaid.unpaid]⟩

/-! ## Lines of boards -/

/-- The first board of a line is any board. Each later one starts from the
snapshot of the board before it, in an empty store, and has a history of its
own from there. The newest board stands first, the `older` ones behind it. -/
inductive Lineage : Store → List Store → Prop
  | founded {s : Store} (run : Reachable s) : Lineage s []
  | moved {s arrived : Store} {older : List Store} {g : Snapshot} {authority : String}
      (line : Lineage s older)
      (taken : s.snapshot = .ok g)
      (put : empty.initialise g authority = .ok arrived)
      (events : List Event) :
      Lineage (arrived.afterAll events) (s :: older)

/-- A board that arrived somewhere could have started there. -/
theorem reachable_of_initialise {g : Snapshot} {authority : String} {arrived : Store}
    (h : empty.initialise g authority = .ok arrived) : Reachable arrived := by
  have hnext : empty.next (.start g authority) = arrived := by rw [next, h]
  rw [← hnext]
  exact Reachable.empty.next _

theorem Lineage.sound {s : Store} {older : List Store} (h : Lineage s older) : s.Sound := by
  cases h with
  | founded run => exact run.sound
  | moved _ _ put events => exact ((reachable_of_initialise put).afterAll events).sound

/-- What is spent on a board is spent where it arrives, and not paid there. -/
theorem Spent.arrived {s arrived : Store} {i : TaskId} (h : s.Spent i) {g : Snapshot}
    {authority : String} (taken : s.snapshot = .ok g)
    (put : empty.initialise g authority = .ok arrived) : arrived.PaidElsewhere i := by
  obtain ⟨-, -, -, rfl⟩ := initialise_eq_ok.mp put
  rw [commit_snapshot taken]
  exact ⟨⟨h.used, h.settled⟩, rfl⟩

/-- The newest board of a line knows of everything that the older ones paid for. -/
theorem Lineage.paidElsewhere {s : Store} {older : List Store} (h : Lineage s older) :
    ∀ u ∈ older, ∀ {i r}, u.rewards.get? i = some r → s.PaidElsewhere i := by
  induction h with
  | founded => nofun
  | @moved s _ _ _ _ line taken put events ih =>
      intro u hu i r hr
      have hspent : s.Spent i := by
        -- Either the board just left has paid, or it knew already of an older payment.
        rcases List.mem_cons.mp hu with rfl | hu
        · exact line.sound.spent hr
        · exact (ih u hu hr).spent
      exact (hspent.arrived taken put).afterAll (reachable_of_initialise put).sound events

/-- Among the boards of a line no id has a reward on two of them. -/
theorem paid_in_one_store {s : Store} {older : List Store} (h : Lineage s older) :
    (s :: older).Pairwise fun u v => ∀ i, u.rewards.get? i = none ∨ v.rewards.get? i = none := by
  induction h with
  | founded => exact List.pairwise_singleton _ _
  | moved line taken put events ih =>
      refine List.pairwise_cons.mpr ⟨?_, ih⟩
      intro u hu i
      cases hr : u.rewards.get? i with
      | none => exact .inr rfl
      | some r => exact .inl ((line.moved taken put events).paidElsewhere u hu hr).unpaid

end BountyBoard.Store

namespace BountyBoard

namespace Sample

/-- The board of the sample history right after the approval. -/
def paidBoard : Store :=
  Store.empty.afterAll (untilReview ++ [approval])

/-- The board elsewhere, where its creator tries to approve the task again
and pays for another one. -/
def afterTheMove : List Event :=
  [sent alice (.approve 0 "tx-2") 20,
    sent alice (.create "Paint the pump" "In green." bounty) 21,
    sent bob (.claim 1) 22,
    sent bob (.submit 1 evidence) 23,
    sent alice (.approve 1 "tx-3") 24]

end Sample

namespace Store

/-- The sample board moves after the approval. The reward stays behind, the
second approval is refused, and the other task is paid for on the new board. -/
theorem paid_in_one_store_sample :
    ∃ arrived, empty.initialise ⟨Params.default, Sample.paidBoard.tasks.rows, 1⟩ Sample.alice
        = .ok arrived
      ∧ Sample.paidBoard.rewards.get? 0 = some ⟨0, Sample.bob, Sample.bounty, 12, "tx-1"⟩
      ∧ (arrived.afterAll Sample.afterTheMove).rewards.get? 0 = none
      ∧ (arrived.afterAll Sample.afterTheMove).rewards.get? 1
        = some ⟨1, Sample.bob, Sample.bounty, 24, "tx-3"⟩ := by
  have htaken : Sample.paidBoard.snapshot
      = .ok ⟨Params.default, Sample.paidBoard.tasks.rows, 1⟩ := by decide +kernel
  have hput : empty.initialise ⟨Params.default, Sample.paidBoard.tasks.rows, 1⟩ Sample.alice
      = .ok { Sample.paidBoard with
          rewards := Table.empty, authority := some Sample.alice } := by decide +kernel
  have hfirst : Sample.paidBoard.rewards.get? 0
      = some ⟨0, Sample.bob, Sample.bounty, 12, "tx-1"⟩ := by decide +kernel
  have hline := (Lineage.founded (Reachable.empty.afterAll _)).moved htaken hput
    Sample.afterTheMove
  refine ⟨_, hput, hfirst, ?_, by decide +kernel⟩
  have hone := (List.pairwise_cons.mp (paid_in_one_store hline)).1 _ List.mem_cons_self 0
  exact hone.resolve_right fun hnone => by cases hfirst.symm.trans hnone

end Store

end BountyBoard

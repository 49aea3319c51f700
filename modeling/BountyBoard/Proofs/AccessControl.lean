import BountyBoard.Proofs.History

/-!
# Who can change a task

Every change to a row is the right of the one who sent the message
(`changes_entitled`): a task is posted by its creator, who alone can revise,
delete, approve and reject it; its claimant can submit evidence and touch
nothing else; and anyone but the creator can claim it while it is open and
unclaimed. The sender of an accepted message is an address, and an address
has one text, so comparing texts is comparing principals.

So nobody else ever gets at a task that is in somebody's hands. An outsider,
neither creator nor claimant, can only claim (`Move.open_of_outsider`), and
there is nothing to claim.
-/

namespace BountyBoard

/-- An outsider can move a task only while it is open and unclaimed. -/
theorem Task.Move.open_of_outsider {sender : String} {now : Time} {t : Task} {m : Message}
    {new : Option Task} (h : t.Move sender now m new) (hcreator : sender ≠ t.creator)
    (hclaimant : t.claimant ≠ some sender) : t.status = .opened ∧ t.claimant = none := by
  cases h with
  | update creator => exact absurd creator.symm hcreator
  | delete creator => exact absurd creator.symm hcreator
  | claim status _ unclaimed => exact ⟨status, unclaimed⟩
  | submit _ claimant => exact absurd claimant hclaimant
  | approve _ creator => exact absurd creator.symm hcreator
  | reject _ creator => exact absurd creator.symm hcreator

namespace Store

/-- The right by which the sender of `m` changes the row of the id `i` from
the store `s` to `s'`. -/
inductive Entitled (s s' : Store) (sender : String) (now : Time) (m : Message) (i : TaskId) : Prop
  | poster {title description : String} {bounty : Coin} {t : Task}
      (message : m = .create title description bounty)
      (next : i = s.nextId)
      (row : s'.tasks.get? i = some t)
      (creator : t.creator = sender)
  | creator {t : Task}
      (message : (∃ r, m = .update i r) ∨ m = .delete i ∨ (∃ txHash, m = .approve i txHash)
        ∨ ∃ reason, m = .reject i reason)
      (found : s.tasks.get? i = some t)
      (creator : t.creator = sender)
  | claimant {e : Evidence} {t : Task}
      (message : m = .submit i e)
      (found : s.tasks.get? i = some t)
      (status : t.status = .claimed)
      (claimant : t.claimant = some sender)
      (row : s'.tasks.get? i = some { t with
        status := .submitted, finding := some (.submitted e), updatedAt := now })
  | claimer {t : Task}
      (message : m = .claim i)
      (found : s.tasks.get? i = some t)
      (status : t.status = .opened)
      (unclaimed : t.claimant = none)
      (other : sender ≠ t.creator)
      (row : s'.tasks.get? i = some { t with
        status := .claimed, claimant := some sender, updatedAt := now })

theorem entitled_of_move {s s' : Store} {sender : String} {now : Time} {m : Message} {t : Task}
    (found : s.tasks.get? t.id = some t)
    (move : t.Move sender now m (s'.tasks.get? t.id)) : s.Entitled s' sender now m t.id := by
  generalize hrow : s'.tasks.get? t.id = new at move
  cases move with
  | update creator => exact .creator (.inl ⟨_, rfl⟩) found creator
  | delete creator => exact .creator (.inr (.inl rfl)) found creator
  | claim status other unclaimed => exact .claimer rfl found status unclaimed other.symm hrow
  | submit status claimant => exact .claimant rfl found status claimant hrow
  | approve _ creator => exact .creator (.inr (.inr (.inl ⟨_, rfl⟩))) found creator
  | reject _ creator => exact .creator (.inr (.inr (.inr ⟨_, rfl⟩))) found creator

theorem Accepts.entitled {s : Store} {authority sender : String} {now : Time} {m : Message}
    {e : Effect} (h : s.Accepts authority sender now m e) {i : TaskId}
    (hchange : (s.commit e.writes).tasks.get? i ≠ s.tasks.get? i) :
    s.Entitled (s.commit e.writes) sender now m i := by
  cases h.rowStep i with
  | stays same => exact absurd same hchange
  | posted create next row => exact .poster create next row rfl
  | moved found move =>
      obtain rfl := Table.key_of_get? found
      exact entitled_of_move found move

/-- A task in somebody's hands outlasts any event that is not a message from
its creator or its claimant. -/
theorem Sound.task_stays {s : Store} (h : s.Sound) {i : TaskId} {t : Task}
    (found : s.tasks.get? i = some t) (hheld : ¬(t.status = .opened ∧ t.claimant = none))
    {event : Event}
    (houtside : ∀ authority sender m now, event = .message authority sender m now →
      sender ≠ t.creator ∧ t.claimant ≠ some sender) :
    (s.next event).tasks.get? i = some t := by
  cases s.outcome event with
  | refused same => rw [same, found]
  | started _ blank =>
      rw [h.tasks_blank blank] at found
      cases found
  | accepted message accepts later =>
      obtain ⟨hcreator, hclaimant⟩ := houtside _ _ _ _ message
      rw [later]
      cases accepts.rowStep i with
      | stays same => rw [same, found]
      | posted _ next =>
          rw [next, h.tasks_nextId] at found
          cases found
      | moved found' move =>
          rw [found] at found'
          cases found'
          exact absurd (move.open_of_outsider hcreator hclaimant) hheld

/-- Who changes the row of a task has the right to, in any store. And a task
of a reachable store that is not both open and unclaimed is the same after
any events with no message from its creator or its claimant among them. -/
theorem changes_entitled :
    (∀ (s s' : Store) (authority sender : String) (m : Message) (now : Time) (answer : Response)
        (i : TaskId),
      s.apply authority sender m now = .ok (s', answer) → s'.tasks.get? i ≠ s.tasks.get? i →
        s.Entitled s' sender now m i)
    ∧ ∀ (s : Store) (i : TaskId) (t : Task) (events : List Event),
      Reachable s → s.tasks.get? i = some t → ¬(t.status = .opened ∧ t.claimant = none) →
        (∀ authority sender m now, .message authority sender m now ∈ events →
          sender ≠ t.creator ∧ t.claimant ≠ some sender) →
        (s.afterAll events).tasks.get? i = some t := by
  refine ⟨?_, ?_⟩
  · intro s s' authority sender m now answer i happly hchange
    obtain ⟨e, haccepts, rfl, -⟩ := apply_eq_ok.mp happly
    exact haccepts.entitled hchange
  · intro s i t events hreach found hheld houtside
    refine hreach.sound.afterAll_induction (P := fun u => u.tasks.get? i = some t) found ?_
    intro u event hmem hu hfound
    refine hu.task_stays hfound hheld ?_
    rintro authority sender m now rfl
    exact houtside authority sender m now hmem

/-- The creator of the sample task approves it, and an intruder gets nowhere. -/
theorem changes_entitled_sample :
    (empty.afterAll Sample.untilReview).Entitled
      ((empty.afterAll Sample.untilReview).next Sample.approval) Sample.alice 12
      (.approve 0 "tx-1") 0
    ∧ ((empty.afterAll Sample.untilReview).afterAll Sample.intrusion).tasks.get? 0
      = some Sample.waiting := by
  constructor
  · have hanswer : (empty.afterAll Sample.untilReview).answer? Sample.approval
        = some (.approved ⟨0, Sample.bob, Sample.bounty, 12, "tx-1"⟩) := by decide +kernel
    obtain ⟨e, haccepts, hresponse⟩ := answer?_eq_some.mp hanswer
    have happly := apply_eq_ok.mpr ⟨e, haccepts, (after_eq haccepts).symm, hresponse⟩
    exact changes_entitled.1 _ _ _ _ _ _ _ 0 happly (by decide +kernel)
  · refine changes_entitled.2 _ 0 Sample.waiting _ (Reachable.empty.afterAll _)
      Sample.task_untilReview (by decide) ?_
    intro authority sender m now hmem
    have hsender : sender = Sample.carol := by
      simp only [Sample.intrusion, Sample.sent, List.mem_cons, Event.message.injEq,
        List.not_mem_nil, or_false] at hmem
      rcases hmem with h | h | h | h <;> exact h.2.1
    rw [hsender]
    decide +kernel

end Store

end BountyBoard

import BountyBoard.Proofs.CommandLine.Folder
import BountyBoard.Proofs.CommandLine.Run

/-!
# Reports that do not blame the parameters

The refusal for missing parameters has a message of its own: no other
message starts out with the same words, and none of those that the program
puts before a file name or a refusal does. So a report speaks of missing
parameters only if it is made from this very refusal.
-/

namespace BountyBoard.CommandLine

/-! ## Messages -/

/-- The text departs somewhere from the message for missing parameters, so
it is another one, whatever comes after it. -/
def Departs (text : String) : Prop :=
  ¬text.toList <+: Refusal.noParams.message.toList

instance (text : String) : Decidable (Departs text) :=
  inferInstanceAs (Decidable (¬_))

theorem Departs.append {text : String} (h : Departs text) (rest : String) :
    Departs (text ++ rest) := by
  intro hprefix
  rw [String.toList_append] at hprefix
  exact h ((List.prefix_append _ _).trans hprefix)

theorem Departs.ne {text : String} (h : Departs text) : Refusal.noParams.message ≠ text := by
  rintro rfl
  exact h (List.prefix_refl _)

theorem departs_address (fault : Address.Fault) : Departs fault.message := by
  cases fault <;> repeat first | decide | apply Departs.append

theorem departs_coin (fault : Coin.Fault) : Departs fault.message := by
  cases fault <;> repeat first | decide | apply Departs.append

theorem departs_task (fault : Task.Fault) : Departs fault.message := by
  cases fault <;> repeat first | decide | apply Departs.append

theorem departs_refusal {refusal : Refusal} (h : refusal ≠ .noParams) :
    Departs refusal.message := by
  cases refusal with
  | noParams => exact absurd rfl h
  | badAddress fault => exact departs_address fault
  | badCoin fault => exact departs_coin fault
  | _ => repeat first | decide | apply Departs.append

theorem departs_failed (m : Message) : Departs (m.name ++ " failed") := by
  refine .append ?_ _
  cases m <;> dsimp only [Message.name] <;> decide

theorem FileFault.Fixed.departs {fault : FileFault} (h : fault.Fixed) :
    Departs fault.message := by
  cases fault with
  | other message => exact absurd rfl (h message)
  | _ => decide

/-! ## Reports -/

namespace Report

/-- The report says that the parameters are missing. -/
def BlamesParams (r : Report) : Prop :=
  Refusal.noParams.message ∈ r.failure :: r.causes

theorem not_blames_plain {failure : String} (h : Departs failure) :
    ¬(plain failure).BlamesParams :=
  fun hmem => h.ne (List.mem_singleton.mp hmem)

theorem not_blames_within {r : Report} (hr : ¬r.BlamesParams) {failure : String}
    (h : Departs failure) : ¬(r.within failure).BlamesParams := by
  intro hmem
  rcases List.mem_cons.mp hmem with heq | hcause
  · exact h.ne heq
  · exact hr hcause

theorem not_blames_ofRefusal {refusal : Refusal} (h : refusal ≠ .noParams) :
    ¬(ofRefusal refusal).BlamesParams := by
  cases refusal with
  | badTask fault =>
      intro hmem
      rcases List.mem_cons.mp hmem with heq | hcause
      · exact (departs_refusal h).ne heq
      · exact (departs_task fault).ne (List.mem_singleton.mp hcause)
  | _ => exact not_blames_plain (departs_refusal h)

end Report

/-! ## What a command reports -/

variable {s : Store} {authority : String} {around : Surroundings}

/-- With parameters in the store, no guard of a message misses them. -/
theorem effect_ne_noParams {p : Params} (hp : s.params = some p) {sender : String} {m : Message}
    {now : Time} : s.effect authority sender m now ≠ .error .noParams := by
  intro h
  cases m <;>
    simp only [Store.effect, Store.create, Store.update, Store.delete, Store.claim, Store.submit,
      Store.approve, Store.reject, Store.setParams, Store.requireStatus, Store.requireCreator,
      Store.requireValid, Reward.check, bind_eq_error, pure_ne_error, ensure_eq_error,
      refuseIf_eq_error, Store.actor_eq_error, Store.task_eq_error, Store.requireParams_eq_error,
      Store.payee_eq_error, Store.idAfter_eq_error, hp, reduceCtorEq, and_false, false_and,
      exists_false, or_self] at h

theorem initialise_ne_noParams {g : Snapshot} : s.initialise g authority ≠ .error .noParams := by
  intro h
  simp only [Store.initialise, Snapshot.check, bind_eq_error, pure_ne_error, ensure_eq_error,
    refuseIf_eq_error, mapError_eq_error, reduceCtorEq, and_false, exists_false, or_self] at h

theorem ofText_ne_noParams {text : String} : Snapshot.ofText text ≠ .error .noParams := by
  intro h
  rw [Snapshot.ofText] at h
  split at h <;> cases h

theorem reward_ne_noParams {id : TaskId} : s.reward id ≠ .error .noParams := by
  intro h
  rw [Store.reward] at h
  split at h <;> cases h

theorem rewardsOf_ne_noParams {who : String} : s.rewardsOf who ≠ .error .noParams := by
  simp only [Store.rewardsOf, bind_eq_error, pure_ne_error, mapError_eq_error, reduceCtorEq,
    and_false, exists_false, or_self, ne_eq, not_false_eq_true]

theorem requireParams_ne_noParams {p : Params} (hp : s.params = some p) :
    s.requireParams ≠ .error .noParams := by
  rw [Store.requireParams_eq_ok.mpr hp]
  exact nofun

theorem snapshot_ne_noParams {p : Params} (hp : s.params = some p) :
    s.snapshot ≠ .error .noParams := by
  intro h
  rcases bind_eq_error.mp h with h | ⟨_, -, h⟩
  · exact requireParams_ne_noParams hp h
  · exact absurd h pure_ne_error

/-- If there is a report, it does not blame missing parameters. -/
def Clear {α : Type} (x : Except Report α) : Prop :=
  ∀ report, x = .error report → ¬report.BlamesParams

theorem clear_ok {α : Type} (a : α) : Clear (.ok a) := nofun

theorem clear_pure {α : Type} (a : α) : Clear (pure a) := clear_ok a

theorem clear_error {α : Type} {report : Report} (h : ¬report.BlamesParams) :
    Clear (.error report : Except Report α) := by
  intro other hother
  cases hother
  exact h

theorem clear_unexpected {α : Type} (answer : Response) :
    Clear (.error (.unexpected answer) : Except Report α) :=
  clear_error (Report.not_blames_plain (.append (by decide) _))

theorem Clear.bind {α β : Type} {x : Except Report α} {f : α → Except Report β} (hx : Clear x)
    (hf : ∀ a, x = .ok a → Clear (f a)) : Clear (x >>= f) := by
  intro report h
  rcases bind_eq_error.mp h with h | ⟨a, ha, h⟩
  · exact hx report h
  · exact hf a ha report h

theorem clear_failWith {α : Type} {result : Except Refusal α} (h : result ≠ .error .noParams) :
    Clear (failWith result) := by
  intro report hreport
  obtain ⟨refusal, hrefused, rfl⟩ := mapError_eq_error.mp hreport
  exact Report.not_blames_ofRefusal fun heq => h (heq ▸ hrefused)

/-- The same where something is said about what was going on. -/
theorem clear_within {α : Type} {result : Except Refusal α} {doing : String}
    (h : result ≠ .error .noParams) (hdoing : Departs doing) :
    Clear (result.mapError fun refusal => (Report.ofRefusal refusal).within doing) := by
  intro report hreport
  obtain ⟨refusal, hrefused, rfl⟩ := mapError_eq_error.mp hreport
  exact Report.not_blames_within
    (Report.not_blames_ofRefusal fun heq => h (heq ▸ hrefused)) hdoing

theorem clear_task (s : Store) (id : TaskId) : Clear (failWith (s.task id)) :=
  clear_failWith fun h => nomatch (Store.task_eq_error.mp h).2

theorem clear_requireSender (around : Surroundings) : Clear (requireSender around) := by
  rw [requireSender]
  split
  · exact clear_ok _
  · exact clear_error (Report.not_blames_plain (by decide))

theorem clear_requireStatus (name : String) : Clear (requireStatus name) := by
  rw [requireStatus]
  split
  · exact clear_error (Report.not_blames_plain (.append (by decide) _))
  · exact clear_ok _

theorem clear_filterOf {creator claimant approver status : Option String}
    {minBounty maxBounty : Amount} :
    Clear (filterOf creator claimant approver status minBounty maxBounty) := by
  refine Clear.bind ?_ fun _ _ => clear_pure _
  cases status with
  | none => exact clear_ok none
  | some name => exact (clear_requireStatus name).bind fun _ _ => clear_pure _

theorem clear_orderOf (sort : Option String) (descending : Bool) :
    Clear (orderOf sort descending) := by
  unfold orderOf
  split
  · split
    · exact clear_ok _
    · exact clear_error (Report.not_blames_plain (.append (by decide) _))
  · exact clear_ok _

theorem clear_send {p : Params} (hp : s.params = some p) (m : Message) :
    Clear (send s authority around m) :=
  (clear_requireSender around).bind fun _ _ =>
    clear_within (fun h => effect_ne_noParams hp (map_eq_error.mp h)) (departs_failed m)

theorem clear_sendAndShow {p : Params} (hp : s.params = some p) (m : Message) (id : TaskId) :
    Clear (sendAndShow s authority around m id) :=
  (clear_send hp m).bind fun _ _ => (clear_task _ id).bind fun _ _ => clear_pure _

theorem clear_snapshotOf (genesis : Option String) : Clear (snapshotOf around genesis) := by
  unfold snapshotOf
  split
  · exact clear_ok _
  · split
    · exact clear_error (Report.not_blames_within
        (Report.not_blames_plain (.append (.append (.append (by decide) _) _) _))
        (.append (by decide) _))
    · exact clear_within ofText_ne_noParams (.append (by decide) _)

theorem clear_initialise (genesis : Option String) :
    Clear (initialise s around authority genesis) := by
  refine Clear.bind (clear_failWith ?_) fun _ _ =>
    (clear_snapshotOf genesis).bind fun _ _ =>
      (clear_within initialise_ne_noParams (by decide)).bind fun _ _ => clear_pure _
  intro h
  obtain ⟨fault, -, hfault⟩ := mapError_eq_error.mp h
  cases hfault

section

variable (hread : ∀ path fault, around.read path = .error fault → fault.Fixed)
include hread

theorem clear_paramsOf (path : String) : Clear (paramsOf around path) := by
  rw [paramsOf]
  split
  · rename_i fault hfault
    exact clear_error (Report.not_blames_within
      (Report.not_blames_plain (hread path fault hfault).departs) (.append (by decide) _))
  · split
    · exact clear_ok _
    · exact clear_error (Report.not_blames_plain (by decide))

theorem clear_runOn {p : Params} (hp : s.params = some p) (command : Command) :
    Clear (runOn s authority around command) := by
  cases command with
  | init => exact clear_initialise _
  | address => exact clear_ok _
  | create =>
      refine (clear_send hp _).bind fun ⟨next, answer⟩ _ => ?_
      cases answer with
      | created id => exact (clear_task next id).bind fun _ _ => clear_pure _
      | _ => exact clear_unexpected _
  | update =>
      exact (clear_task s _).bind fun _ _ => (clear_requireStatus _).bind fun _ _ =>
        clear_sendAndShow hp _ _
  | delete => exact (clear_send hp _).bind fun _ _ => clear_pure _
  | claim => exact clear_sendAndShow hp _ _
  | submit => exact clear_sendAndShow hp _ _
  | approve =>
      refine (clear_requireSender around).bind fun _ _ =>
        (clear_send hp _).bind fun ⟨next, answer⟩ _ => ?_
      cases answer with
      | approved => exact clear_pure _
      | _ => exact clear_unexpected _
  | reject =>
      exact (clear_send hp _).bind fun _ _ => (clear_task _ _).bind fun _ _ => clear_pure _
  | showTask => exact (clear_task s _).bind fun _ _ => clear_pure _
  | list =>
      exact clear_filterOf.bind fun _ _ => (clear_orderOf _ _).bind fun _ _ => clear_pure _
  | reward id => exact (clear_failWith reward_ne_noParams).bind fun _ _ => clear_pure _
  | rewards claimant =>
      cases claimant with
      | none => exact clear_ok _
      | some who => exact (clear_failWith rewardsOf_ne_noParams).bind fun _ _ => clear_pure _
  | params =>
      exact (clear_failWith (requireParams_ne_noParams hp)).bind fun _ _ => clear_pure _
  | setParams path =>
      refine (clear_paramsOf hread path).bind fun q _ =>
        (clear_send hp (.setParams q)).bind fun ⟨next, answer⟩ hsend =>
          (clear_failWith ?_).bind fun _ _ => clear_pure _
      obtain ⟨sender, -, happly⟩ := send_eq_ok.mp hsend
      cases Store.brings_of_apply happly with
      | updated _ move => cases move
      | paramsUpdated rest =>
          rw [rest]
          exact requireParams_ne_noParams rfl
  | exportTo out =>
      refine (clear_failWith (snapshot_ne_noParams hp)).bind fun _ _ => ?_
      cases out <;> exact clear_pure _

end

/-- As long as a board with an authority has parameters, no report blames
missing ones. -/
theorem clear_run (hread : ∀ path fault, around.read path = .error fault → fault.Fixed)
    (hstored : s.authority ≠ none → s.params ≠ none) (command : Command) :
    Clear (run s around command) := by
  cases hs : s.authority with
  | some authority =>
      obtain ⟨p, hp⟩ := Option.ne_none_iff_exists'.mp (hstored (hs ▸ Option.some_ne_none _))
      rw [run_of_authority hs]
      exact clear_runOn hread hp command
  | none =>
      simp only [run, hs]
      split
      · cases command with
        | init => exact clear_initialise _
        | address => exact clear_ok _
        | _ => contradiction
      · exact clear_error (Report.not_blames_plain (by decide))

end BountyBoard.CommandLine

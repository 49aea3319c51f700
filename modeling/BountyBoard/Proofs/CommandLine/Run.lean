import BountyBoard.CommandLine.Run
import BountyBoard.Proofs.Effect

/-!
# What a command does to a board

A command either asks about the board or stands for one event
(`Command.event?`). A question leaves the store as it is (`run_asks`). Any
other command succeeds exactly when the board takes its event, and leaves the
store that the event leads to (`run_ok_iff`).

A command reads the store before and after it sends its message, and it fails
when there is nothing to be read. Before the message no harm is done. After
it, nothing can be missing: the answer is the one that the message asks for, and
whatever an accepted message is about is there to be printed
(`send_bind_ok_iff`). So a command that fails has not changed
anything, whether or not its writes are held back until its end.
-/

namespace BountyBoard

namespace Store

/-- The store that an event leads to, if it is not refused. -/
def take (s : Store) : Event → Except Refusal Store
  | .start g authority => s.initialise g authority
  | .message authority sender m now => (s.apply authority sender m now).map Prod.fst

theorem take_message {s s' : Store} {authority sender : String} {m : Message} {now : Time} :
    s.take (.message authority sender m now) = .ok s'
      ↔ ∃ answer, s.apply authority sender m now = .ok (s', answer) := by
  rw [take]
  cases s.apply authority sender m now <;> simp [Except.map, Prod.ext_iff]

theorem next_of_take {s s' : Store} {event : Event} (h : s.take event = .ok s') :
    s.next event = s' := by
  cases event with
  | start g authority => exact next_started h
  | message authority sender m now =>
      obtain ⟨answer, happly⟩ := take_message.mp h
      obtain ⟨e, haccepts, hcommit, -⟩ := apply_eq_ok.mp happly
      exact (after_eq haccepts).trans hcommit

theorem brings_of_apply {s s' : Store} {authority sender : String} {m : Message} {now : Time}
    {answer : Response} (h : s.apply authority sender m now = .ok (s', answer)) :
    s.Brings s' sender now m answer := by
  obtain ⟨e, haccepts, rfl, rfl⟩ := apply_eq_ok.mp h
  exact haccepts.brings

/-- The task that a message is about can be read afterwards, if it was not deleted. -/
theorem Brings.task {s s' : Store} {sender : String} {m : Message} {now : Time}
    {answer : Response} (h : s.Brings s' sender now m answer) {id : TaskId}
    (haddressee : m.addressee? = some id) (hstays : m ≠ .delete id) :
    ∃ t, s'.task id = .ok t := by
  cases h with
  | created => cases haddressee
  | updated _ move _ row =>
      obtain rfl := Option.some.inj (move.addressee?.symm.trans haddressee)
      exact ⟨_, task_eq_ok.mpr row.row⟩
  | deleted =>
      obtain rfl := Option.some.inj haddressee
      exact absurd rfl hstays
  | approved _ _ _ row =>
      obtain rfl := Option.some.inj haddressee
      exact ⟨_, task_eq_ok.mpr row.row⟩
  | paramsUpdated => cases haddressee

end Store

namespace CommandLine

/-! ## What a command stands for -/

/-- The command asks about the board and is no request to change it. -/
def Command.asks : Command → Bool
  | .address _ | .showTask _ | .list .. | .reward _ | .rewards _ | .params | .exportTo _ => true
  | _ => false

/-- The message that a command sends in the name of `sender`. A revision
keeps what the command does not name. -/
def Command.message? (s : Store) (around : Surroundings) (sender : String) :
    Command → Option Message
  | .create title description bounty => some (.create title description bounty)
  | .update id name title description bounty clearClaim =>
    (s.tasks.get? id).bind fun t =>
      if Status.ofName name = .undefined then none
      else some (.update id {
        title := title.getD t.title
        description := description.getD t.description
        bounty := bounty.getD t.bounty
        status := Status.ofName name
        claimant := if clearClaim then none else t.claimant
        finding := if clearClaim then none else t.finding
        approver := t.approver })
  | .delete id => some (.delete id)
  | .claim id => some (.claim id)
  | .submit id hash kind data => some (.submit id ⟨hash, kind, data, around.now⟩)
  | .approve id => some (.approve id (approvalName id sender around.now))
  | .reject id reason => some (.reject id reason)
  | .setParams path => (paramsOf around path).toOption.map .setParams
  | _ => none

/-- The event that a command stands for on a board: the snapshot of a file is
put in, or a message is sent while the stored authority may replace the
parameters. -/
def Command.event? (s : Store) (around : Surroundings) : Command → Option Event
  | .init authority genesis => (snapshotOf around genesis).toOption.map (.start · authority)
  | command =>
    s.authority.bind fun authority =>
      around.sender.bind fun sender =>
        (command.message? s around sender).map (.message authority sender · around.now)

variable {s s' : Store} {authority : String} {around : Surroundings} {command : Command}

theorem requireSender_eq_ok {sender : String} :
    requireSender around = .ok sender ↔ around.sender = some sender := by
  rw [requireSender]
  cases around.sender <;> simp

theorem requireStatus_eq_ok {name : String} {status : Status} :
    requireStatus name = .ok status ↔ Status.ofName name = status ∧ status ≠ .undefined := by
  rw [requireStatus]
  split
  · rename_i hundefined
    rw [hundefined]
    exact iff_of_false (fun h => by cases h) fun h => h.2 h.1.symm
  · rename_i hdefined
    constructor
    · rintro ⟨⟩
      exact ⟨rfl, hdefined⟩
    · rintro ⟨rfl, -⟩
      rfl

theorem send_eq_ok {m : Message} {answer : Response} :
    send s authority around m = .ok (s', answer)
      ↔ ∃ sender, around.sender = some sender
        ∧ s.apply authority sender m around.now = .ok (s', answer) := by
  simp only [send, bind_eq_ok, requireSender_eq_ok, mapError_eq_ok]

theorem failWith_eq_ok {α : Type} {result : Except Refusal α} {a : α} :
    failWith result = .ok a ↔ result = .ok a :=
  mapError_eq_ok

/-- The message is accepted from the sender of the run. -/
def Accepted (s s' : Store) (authority : String) (around : Surroundings) (m : Message) : Prop :=
  ∃ sender answer, around.sender = some sender
    ∧ s.apply authority sender m around.now = .ok (s', answer)

/-- What comes after an accepted message succeeds with the store as it is
then, so it all depends on the message. -/
theorem send_bind_ok_iff {m : Message} {k : Store × Response → Except Report (Store × Output)}
    (continues : ∀ sender next answer, s.apply authority sender m around.now = .ok (next, answer) →
      ∃ out, k (next, answer) = .ok (next, out)) :
    (∃ out, (send s authority around m >>= k) = .ok (s', out))
      ↔ Accepted s s' authority around m := by
  simp only [bind_eq_ok, Prod.exists, send_eq_ok, Accepted]
  constructor
  · rintro ⟨out, next, answer, ⟨sender, hsender, happly⟩, hk⟩
    obtain ⟨out', hk'⟩ := continues sender next answer happly
    rw [hk'] at hk
    cases hk
    exact ⟨sender, answer, hsender, happly⟩
  · rintro ⟨sender, answer, hsender, happly⟩
    obtain ⟨out, hk⟩ := continues sender s' answer happly
    exact ⟨out, s', answer, ⟨sender, hsender, happly⟩, hk⟩

theorem failWith_task_bind {next : Store} {id : TaskId} (h : ∃ t, next.task id = .ok t)
    (f : Task → Output) :
    ∃ out, (do
      let t ← failWith (next.task id)
      return (next, f t) : Except Report (Store × Output)) = .ok (next, out) := by
  obtain ⟨t, ht⟩ := h
  rw [ht]
  exact ⟨f t, rfl⟩

theorem sendAndShow_ok_iff {m : Message} {id : TaskId} (haddressee : m.addressee? = some id)
    (hstays : m ≠ .delete id) :
    (∃ out, sendAndShow s authority around m id = .ok (s', out))
      ↔ Accepted s s' authority around m :=
  send_bind_ok_iff fun _ _ _ happly =>
    failWith_task_bind ((Store.brings_of_apply happly).task haddressee hstays) _

/-- The message that the command sends is accepted. -/
def Command.Sends (command : Command) (s s' : Store) (authority : String)
    (around : Surroundings) : Prop :=
  ∃ sender m answer, around.sender = some sender
    ∧ command.message? s around sender = some m
    ∧ s.apply authority sender m around.now = .ok (s', answer)

theorem sends_iff {m : Message}
    (hm : ∀ sender, around.sender = some sender → command.message? s around sender = some m) :
    command.Sends s s' authority around ↔ Accepted s s' authority around m := by
  constructor
  · rintro ⟨sender, other, answer, hsender, hother, happly⟩
    cases (hm sender hsender).symm.trans hother
    exact ⟨sender, answer, hsender, happly⟩
  · rintro ⟨sender, answer, hsender, happly⟩
    exact ⟨sender, m, answer, hsender, hm sender hsender, happly⟩

theorem not_sends
    (h : ∀ sender, around.sender = some sender → command.message? s around sender = none) :
    ¬command.Sends s s' authority around := by
  rintro ⟨sender, m, -, hsender, hm, -⟩
  cases (h sender hsender).symm.trans hm

/-- A revision is made from the task as it is, and from a name that is one of a status. -/
theorem update_ok_iff {id : TaskId} {name : String} {title description : Option String}
    {bounty : Option Coin} {clearClaim : Bool} :
    (∃ out, runOn s authority around (.update id name title description bounty clearClaim)
        = .ok (s', out))
      ↔ (Command.update id name title description bounty clearClaim).Sends s s' authority
          around := by
  cases hfound : s.tasks.get? id with
  | none =>
      have htask : s.task id = .error (.noTask id) := Store.task_eq_error.mpr ⟨hfound, rfl⟩
      refine iff_of_false ?_ (not_sends fun _ _ => by rw [Command.message?, hfound]; rfl)
      rw [runOn, htask]
      exact nofun
  | some t =>
      have htask : s.task id = .ok t := Store.task_eq_ok.mpr hfound
      by_cases hname : Status.ofName name = .undefined
      · refine iff_of_false ?_ (not_sends fun _ _ => ?_)
        · rw [runOn, htask, requireStatus, hname]
          exact nofun
        · simp [Command.message?, hfound, hname]
      · have hstatus : requireStatus name = .ok (Status.ofName name) :=
          requireStatus_eq_ok.mpr ⟨rfl, hname⟩
        rw [runOn, htask, hstatus]
        refine (sendAndShow_ok_iff (m := .update id _) rfl nofun).trans
          (sends_iff fun _ _ => ?_).symm
        simp [Command.message?, hfound, hname]

/-- An approval is named after its sender, who has to be there first. -/
theorem approve_ok_iff {id : TaskId} :
    (∃ out, runOn s authority around (.approve id) = .ok (s', out))
      ↔ (Command.approve id).Sends s s' authority around := by
  cases hsender : around.sender with
  | none =>
      refine iff_of_false ?_ (not_sends fun sender h => ?_)
      · rw [runOn, requireSender, hsender]
        exact nofun
      · cases hsender.symm.trans h
  | some sender =>
      have hm : ∀ other, around.sender = some other →
          Command.message? s around other (.approve id)
            = some (.approve id (approvalName id sender around.now)) := by
        intro other hother
        cases hsender.symm.trans hother
        rfl
      rw [runOn, requireSender_eq_ok.mpr hsender]
      refine Iff.trans (send_bind_ok_iff fun _ next answer happly => ?_) (sends_iff hm).symm
      obtain ⟨e, haccepts, -, rfl⟩ := Store.apply_eq_ok.mp happly
      obtain ⟨r, hanswer, -⟩ := haccepts.pays
      rw [hanswer]
      exact ⟨_, rfl⟩

theorem setParams_ok_iff {path : String} :
    (∃ out, runOn s authority around (.setParams path) = .ok (s', out))
      ↔ (Command.setParams path).Sends s s' authority around := by
  cases hparams : paramsOf around path with
  | error report =>
      refine iff_of_false ?_ (not_sends fun _ _ => by rw [Command.message?, hparams]; rfl)
      rw [runOn, hparams]
      exact nofun
  | ok p =>
      rw [runOn, hparams]
      refine (send_bind_ok_iff (m := .setParams p) fun _ next answer happly => ?_).trans
        (sends_iff fun _ _ => by rw [Command.message?, hparams]; rfl).symm
      cases Store.brings_of_apply happly with
      | updated _ move => cases move
      | paramsUpdated rest =>
          rw [rest]
          exact ⟨_, rfl⟩

/-- A command that sends a message succeeds exactly when the message is
accepted: nothing that it reads afterwards can be missing. -/
theorem runOn_ok_iff (hasks : command.asks = false)
    (hinit : ∀ authority genesis, command ≠ .init authority genesis) :
    (∃ out, runOn s authority around command = .ok (s', out))
      ↔ command.Sends s s' authority around := by
  cases command with
  | init => exact absurd rfl (hinit _ _)
  | create title description bounty =>
      refine Iff.trans (send_bind_ok_iff (m := .create title description bounty) ?_)
        (sends_iff fun _ _ => rfl).symm
      intro sender next answer happly
      cases Store.brings_of_apply happly with
      | created _ row => exact failWith_task_bind ⟨_, Store.task_eq_ok.mpr row.row⟩ _
      | updated _ move => cases move
  | update => exact update_ok_iff
  | delete id =>
      exact (send_bind_ok_iff (m := .delete id) fun _ _ _ _ => ⟨_, rfl⟩).trans
        (sends_iff fun _ _ => rfl).symm
  | claim id =>
      exact (sendAndShow_ok_iff (m := .claim id) rfl nofun).trans (sends_iff fun _ _ => rfl).symm
  | submit id hash kind data =>
      exact (sendAndShow_ok_iff (m := .submit id ⟨hash, kind, data, around.now⟩) rfl nofun).trans
        (sends_iff fun _ _ => rfl).symm
  | approve => exact approve_ok_iff
  | reject id reason =>
      refine Iff.trans (send_bind_ok_iff (m := .reject id reason) ?_)
        (sends_iff fun _ _ => rfl).symm
      intro sender next answer happly
      exact failWith_task_bind ((Store.brings_of_apply happly).task rfl nofun) _
  | setParams => exact setParams_ok_iff
  | _ => cases hasks

theorem run_of_authority (hs : s.authority = some authority) :
    run s around command = runOn s authority around command := by
  rw [run, hs]

/-- On a board that was not started, nothing is done that needs one. -/
theorem run_unstarted (hs : s.authority = none) (hneeds : command.needsNoBoard = false) :
    ∃ report, run s around command = .error report := by
  simp only [run, hs, hneeds]
  exact ⟨_, rfl⟩

theorem run_init {authority : String} {genesis : Option String} :
    run s around (.init authority genesis) = initialise s around authority genesis := by
  rw [run]
  cases s.authority <;> rfl

theorem initialise_ok_iff {genesis : Option String} :
    (∃ out, initialise s around authority genesis = .ok (s', out))
      ↔ ∃ g, snapshotOf around genesis = .ok g ∧ s.initialise g authority = .ok s' := by
  simp only [initialise, bind_eq_ok, pure_eq_ok, failWith_eq_ok, mapError_eq_ok,
    Address.canonical_eq_ok, Prod.mk.injEq]
  constructor
  · rintro ⟨out, _, ⟨-, rfl⟩, g, hg, next, hnext, rfl, -⟩
    exact ⟨g, hg, hnext⟩
  · rintro ⟨g, hg, hnext⟩
    obtain ⟨-, haddress, -, -⟩ := Store.initialise_eq_ok.mp hnext
    exact ⟨_, authority, ⟨haddress, rfl⟩, g, hg, s', hnext, rfl, rfl⟩

theorem event?_eq_some (hinit : ∀ authority genesis, command ≠ .init authority genesis)
    {event : Event} :
    command.event? s around = some event
      ↔ ∃ authority sender m, s.authority = some authority ∧ around.sender = some sender
        ∧ command.message? s around sender = some m
        ∧ .message authority sender m around.now = event := by
  have hevent : command.event? s around = s.authority.bind fun authority =>
      around.sender.bind fun sender =>
        (command.message? s around sender).map (.message authority sender · around.now) := by
    cases command with
    | init => exact absurd rfl (hinit _ _)
    | _ => rfl
  simp only [hevent, Option.bind_eq_some_iff, Option.map_eq_some_iff, exists_and_left]

theorem asks_eq_false {event : Event} (h : command.event? s around = some event) :
    command.asks = false := by
  cases command with
  | init | create | update | delete | claim | submit | approve | reject | setParams => rfl
  | _ => simp [Command.event?, Command.message?] at h

/-- A command that is no question succeeds exactly when the board takes the
event that the command stands for, and leaves the store that it leads to. -/
theorem run_ok_iff (hasks : command.asks = false) :
    (∃ out, run s around command = .ok (s', out))
      ↔ ∃ event, command.event? s around = some event ∧ s.take event = .ok s' := by
  by_cases hinit : ∃ authority genesis, command = .init authority genesis
  · obtain ⟨authority, genesis, rfl⟩ := hinit
    rw [run_init, initialise_ok_iff, Command.event?]
    cases snapshotOf around genesis <;> simp [Except.toOption, Store.take]
  · replace hinit : ∀ authority genesis, command ≠ .init authority genesis :=
      fun authority genesis h => hinit ⟨authority, genesis, h⟩
    have hneeds : command.needsNoBoard = false := by
      cases command with
      | init => exact absurd rfl (hinit _ _)
      | address => cases hasks
      | _ => rfl
    simp only [event?_eq_some hinit]
    cases hs : s.authority with
    | none =>
        obtain ⟨report, hreport⟩ : ∃ report, run s around command = .error report :=
          run_unstarted hs hneeds
        simp [hreport]
    | some authority =>
        rw [run_of_authority hs, runOn_ok_iff hasks hinit]
        constructor
        · rintro ⟨sender, m, answer, hsender, hm, happly⟩
          exact ⟨_, ⟨authority, sender, m, rfl, hsender, hm, rfl⟩,
            Store.take_message.mpr ⟨_, happly⟩⟩
        · rintro ⟨_, ⟨_, sender, m, hauthority, hsender, hm, rfl⟩, htake⟩
          cases hauthority
          obtain ⟨answer, happly⟩ := Store.take_message.mp htake
          exact ⟨sender, m, answer, hsender, hm, happly⟩

theorem exists_runOn {result : Store × Output} (h : run s around command = .ok result) :
    ∃ authority, runOn s authority around command = .ok result := by
  rw [run] at h
  split at h
  · exact ⟨_, h⟩
  · split at h
    · exact ⟨"", h⟩
    · cases h

/-- A question leaves the store as it is. -/
theorem run_asks {out : Output} (hasks : command.asks = true)
    (h : run s around command = .ok (s', out)) : s' = s := by
  obtain ⟨authority, h⟩ := exists_runOn h
  cases command with
  | address =>
      cases h
      rfl
  | rewards claimant =>
      cases claimant with
      | none =>
          cases h
          rfl
      | some who =>
          obtain ⟨_, -, h⟩ := bind_eq_ok.mp h
          cases h
          rfl
  | exportTo path =>
      obtain ⟨g, -, h⟩ := bind_eq_ok.mp h
      cases path <;> cases h <;> rfl
  | list =>
      obtain ⟨_, -, h⟩ := bind_eq_ok.mp h
      obtain ⟨_, -, h⟩ := bind_eq_ok.mp h
      cases h
      rfl
  | showTask | reward | params =>
      obtain ⟨_, -, h⟩ := bind_eq_ok.mp h
      cases h
      rfl
  | _ => cases hasks

/-- Whatever is done, in the end a line is printed. The exceptions are a rejection,
which may break off there, and an export, which may write a file. -/
theorem line_of_run {out : Output} (hreject : ∀ id reason, command ≠ .reject id reason)
    (hexport : ∀ path, command ≠ .exportTo path)
    (h : run s around command = .ok (s', out)) : ∃ text, out = .line text := by
  obtain ⟨authority, h⟩ := exists_runOn h
  cases out with
  | line text => exact ⟨text, rfl⟩
  | file | broken =>
      exfalso
      cases command with
      | reject => exact hreject _ _ rfl
      | exportTo => exact hexport _ rfl
      | address => cases h
      | rewards claimant =>
          cases claimant with
          | none => cases h
          | some who =>
              obtain ⟨_, -, h⟩ := bind_eq_ok.mp h
              cases h
      | create =>
          obtain ⟨⟨next, answer⟩, -, h⟩ := bind_eq_ok.mp h
          cases answer with
          | created =>
              obtain ⟨_, -, h⟩ := bind_eq_ok.mp h
              cases h
          | _ => cases h
      | approve =>
          obtain ⟨_, -, h⟩ := bind_eq_ok.mp h
          obtain ⟨⟨next, answer⟩, -, h⟩ := bind_eq_ok.mp h
          cases answer <;> cases h
      | _ =>
          simp only [runOn, initialise, sendAndShow, bind_eq_ok, pure_eq_ok, printed,
            Prod.mk.injEq, reduceCtorEq, and_false, exists_false] at h

/-- Only an export writes a file. -/
theorem run_file {path text : String} (h : run s around command = .ok (s', .file path text)) :
    command = .exportTo (some path) := by
  by_cases hprints : (∀ id reason, command ≠ .reject id reason)
      ∧ ∀ path, command ≠ .exportTo path
  · obtain ⟨_, hline⟩ := line_of_run hprints.1 hprints.2 h
    cases hline
  · obtain ⟨authority, h⟩ := exists_runOn h
    cases command with
    | exportTo out =>
        obtain ⟨g, -, h⟩ := bind_eq_ok.mp h
        cases out <;> cases h
        rfl
    | reject =>
        obtain ⟨_, -, h⟩ := bind_eq_ok.mp h
        obtain ⟨t, -, h⟩ := bind_eq_ok.mp h
        simp only [rejectionOutput, pure_eq_ok, Prod.mk.injEq] at h
        split at h <;> cases h.2
    | _ => exact absurd ⟨nofun, nofun⟩ hprints

end CommandLine

end BountyBoard

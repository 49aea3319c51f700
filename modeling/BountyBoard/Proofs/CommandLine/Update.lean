import BountyBoard.Proofs.CommandLine.Runs
import BountyBoard.Proofs.Diagnosis

/-!
# What an update keeps

A revision replaces all that a creator can change about a task, and it does not
know what was there before. An `update` on the command line names what is to
change, and the rest stays (`Edits`): it reads the task and fills a revision up
with what it finds.

Every field goes one of three ways. Id, creator and time of creation are in no
revision. What has an argument is taken from it or else from the task. Claimant,
finding and approver have none, so they would be lost if they were not carried
over, the first two unless the claim is to be cleared. What is printed is read
from the board after the message and is the task that stands there.
-/

namespace BountyBoard

namespace Status

/-- The name is that of the status, in any mix of upper and lower ASCII case. -/
def Named (status : Status) (name : String) : Prop :=
  name.toList.map Char.toLower = status.name.toList

theorem ofName_eq_iff {status : Status} {name : String} (hdefined : status ≠ .undefined) :
    ofName name = status ↔ status.Named name := by
  have hof : ofName name = (all.find? fun status =>
      status.name == String.ofList (name.toList.map Char.toLower)).getD undefined := rfl
  constructor
  · intro h
    rw [hof, Option.getD_eq_iff] at h
    obtain hfound | ⟨-, hundefined⟩ := h
    · have hsame := List.find?_some hfound
      rw [Named, beq_iff_eq.mp hsame, String.toList_ofList]
    · exact absurd hundefined.symm hdefined
  · intro h
    rw [hof, h, String.ofList_toList]
    cases status <;> decide

end Status

namespace CommandLine

/-- What an `update` with these arguments makes of a task at the time `now`. -/
structure Edits (name : String) (title description : Option String) (bounty : Option Coin)
    (clearClaim : Bool) (now : Time) (t t' : Task) : Prop where
  named : t'.status.Named name
  defined : t'.status ≠ .undefined
  unapproved : t'.status ≠ .approved
  edge : t.status.canBecome t'.status = true
  id : t'.id = t.id
  creator : t'.creator = t.creator
  createdAt : t'.createdAt = t.createdAt
  approver : t'.approver = t.approver
  updatedAt : t'.updatedAt = now
  title : t'.title = title.getD t.title
  description : t'.description = description.getD t.description
  bounty : t'.bounty = bounty.getD t.bounty
  cleared : clearClaim = true → t'.claimant = none ∧ t'.finding = none
  claim : clearClaim = false → t'.claimant = t.claimant ∧ t'.finding = t.finding

variable {s s' : Store} {around : Surroundings} {out : Output} {id : TaskId} {name : String}
  {title description : Option String} {bounty : Option Coin} {clearClaim : Bool}

/-- A revision that is filled up from the task itself. -/
theorem edits_revise {t : Task} {status : Status} {now : Time} (hname : Status.ofName name = status)
    (hdefined : status ≠ .undefined) (hgate : status ≠ .approved)
    (hedge : t.status.canBecome status = true) :
    Edits name title description bounty clearClaim now t
      (Store.revise t {
        title := title.getD t.title
        description := description.getD t.description
        bounty := bounty.getD t.bounty
        status := status
        claimant := if clearClaim then none else t.claimant
        finding := if clearClaim then none else t.finding
        approver := t.approver } now) where
  named := (Status.ofName_eq_iff hdefined).mp hname
  defined := hdefined
  unapproved := hgate
  edge := hedge
  id := rfl
  creator := rfl
  createdAt := rfl
  approver := rfl
  updatedAt := rfl
  title := rfl
  description := rfl
  bounty := rfl
  cleared h := by
    subst h
    exact ⟨rfl, rfl⟩
  claim h := by
    subst h
    exact ⟨rfl, rfl⟩

/-- An `update` that is done edits one task, leaves everything else in the
store as it is and prints the task as it is then. -/
theorem edits_of_run
    (h : run s around (.update id name title description bounty clearClaim) = .ok (s', out)) :
    ∃ t t', s.tasks.get? id = some t
      ∧ Edits name title description bounty clearClaim around.now t t'
      ∧ s.tasks.Sets id (some t') s'.tasks
      ∧ s' = { s with tasks := s'.tasks }
      ∧ out = printed t'.toJson := by
  obtain ⟨authority, h⟩ := exists_runOn h
  obtain ⟨t, htask, h⟩ := bind_eq_ok.mp h
  obtain ⟨status, hstatus, h⟩ := bind_eq_ok.mp h
  obtain ⟨⟨next, answer⟩, hsend, h⟩ := bind_eq_ok.mp h
  obtain ⟨shown, hshown, h⟩ := bind_eq_ok.mp h
  cases h
  replace htask := Store.task_eq_ok.mp (failWith_eq_ok.mp htask)
  replace hshown := Store.task_eq_ok.mp (failWith_eq_ok.mp hshown)
  obtain ⟨hname, hdefined⟩ := requireStatus_eq_ok.mp hstatus
  obtain ⟨sender, -, happly⟩ := send_eq_ok.mp hsend
  cases Store.brings_of_apply happly with
  | updated hfound move _ row rest =>
      cases move with
      | update _ gate edge =>
          -- the message was filled up from the very task that it revises
          obtain rfl := Option.some.inj (htask.symm.trans hfound)
          obtain rfl := Option.some.inj (hshown.symm.trans row.row)
          exact ⟨t, _, hfound, edits_revise hname hdefined gate edge, row, rest, rfl⟩

/-- A run of `update` that ends with 0 edits one task of the board: it gets what
is given, at the time of the run, in a status of that name which its old status
can become, and keeps the rest. Claimant and finding are cleared or kept
together. The other tasks, the rewards, the parameters, the next id and the
authority are as before, and what is printed is the task as it stands then. -/
theorem update_edits {r : Run} {settings : Settings}
    (hrequest : request r.args
      = .run settings (.update id name title description bounty clearClaim))
    (hcode : r.ending.code = 0) {d : List String}
    (hplace : r.found.placeOf (Path.expandHome r.found.home settings.dataDir) = d) :
    ∃ t t', (r.found.boardAt d).tasks.get? id = some t
      ∧ Edits name title description bounty clearClaim (settings.now.getD r.found.clock) t t'
      ∧ (r.found.boardAt d).tasks.Sets id (some t') (r.left.boardAt d).tasks
      ∧ r.left.boardAt d = { r.found.boardAt d with tasks := (r.left.boardAt d).tasks }
      ∧ r.ending = .printed (t'.toJson.render ++ "\n") := by
  have hr : r.At d := by
    intro settings' command hother _
    cases hrequest.symm.trans hother
    exact ⟨hplace, fun _ hfile => by cases hfile⟩
  cases r.outcome hr with
  | idle without => exact absurd hrequest (without _ _)
  | failed _ ending =>
      rw [ending] at hcode
      exact absurd hcode (by decide : (1 : UInt32) ≠ 0)
  | done requested shown done _ shows =>
      cases hrequest.symm.trans requested
      obtain ⟨t, t', hfound, hedits, hrow, hrest, rfl⟩ := edits_of_run done
      rw [shown.now] at hedits
      exact ⟨t, t', hfound, hedits, hrow, hrest, shows _ rfl⟩

end CommandLine

open CommandLine

namespace Sample

/-- The board of the waiting task is kept in the root. Its creator rejects the
task and gives it another title. -/
def retitling : Run where
  found := {
    current := []
    entries := [(["db"], .board waitingBoard), (["conf"], .text ""), (["blobs"], .directory)]
    environment := []
    clock := 5 }
  args := ["--data-dir", "/", "--from", alice, "--now", "20", "update", "0",
    "--status", "Rejected", "--title", "Mend the pump"]

def retitle : Command :=
  .update 0 "Rejected" (some "Mend the pump") none none false

theorem request_retitling :
    request retitling.args = .run ⟨"/", some alice, some 20⟩ retitle := by
  decide +kernel

/-- What the run asks of the board. -/
def retitled : Revision :=
  ⟨"Mend the pump", "It leaks.", bounty, .rejected, some bob, some (.submitted evidence), none⟩

theorem valid_retitled : (Store.revise waiting retitled 20).Valid .default := by
  obtain ⟨hform, hfits⟩ := Task.valid_iff_fits.mp valid_waiting
  refine Task.valid_iff_fits.mpr ⟨?_, { hfits with title := by decide }⟩
  exact { hform with title := by decide, status := by decide, updated := by decide }

theorem free_retitling : retitling.found.RootFree :=
  ⟨rfl, by rintro ⟨⟩, by rintro ⟨⟩⟩

theorem placeOf_retitling :
    retitling.found.placeOf (Path.expandHome retitling.found.home "/") = [] := by
  rw [expandHome_root]
  exact Folder.placeOf_root free_retitling.current

theorem code_retitling : retitling.ending.code = 0 := by
  have haccepts : waitingBoard.Accepts alice alice 20 (.update 0 retitled) _ :=
    .update isText_alice rfl rfl rfl (by decide) (by decide) valid_retitled
  have htake := Store.take_message.mpr ⟨_, Store.apply_eq_ok.mpr ⟨_, haccepts, rfl, rfl⟩⟩
  refine Run.code_root free_retitling request_retitling rfl rfl rfl (by rintro _ _ ⟨⟩) ?_
  intro around hshows
  have hevent : retitle.event? waitingBoard around
      = some (.message alice alice (.update 0 retitled) 20) := by
    rw [retitle, Command.event?, hshows.sender, hshows.now]
    · rfl
    · rintro _ _ ⟨⟩
  exact ⟨_, (run_ok_iff rfl).mpr ⟨_, hevent, htake⟩⟩

end Sample

/-- The task gets its new title and the status that was named in other letters.
Nothing was said about its claimant, who stays. -/
theorem CommandLine.update_edits_sample :
    Sample.retitling.ending.code = 0
    ∧ ∃ t, (Sample.retitling.left.boardAt []).tasks.get? 0 = some t
      ∧ t.status.Named "Rejected" ∧ t.title = "Mend the pump" ∧ t.description = "It leaks."
      ∧ t.claimant = some Sample.bob ∧ t.updatedAt = 20 := by
  obtain ⟨t, t', hfound, hedits, hrow, -, -⟩ :=
    update_edits Sample.request_retitling Sample.code_retitling Sample.placeOf_retitling
  obtain rfl : Sample.waiting = t := Option.some.inj hfound
  exact ⟨Sample.code_retitling, t', hrow.row, hedits.named, hedits.title, hedits.description,
    (hedits.claim rfl).1, hedits.updatedAt⟩

end BountyBoard

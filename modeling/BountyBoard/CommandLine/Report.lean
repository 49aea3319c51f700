import BountyBoard.Encoding
import BountyBoard.Message
import BountyBoard.Refusal

/-!
# Reports

How a failure is reported: what was being done, and below it the causes,
each one line deeper into the matter. A single cause stands by itself,
several are numbered, and the further lines of a cause that has several are
indented to its first. An answer that nobody expected is shown as it is, with
the names of its fields.
-/

namespace BountyBoard.CommandLine

/-- What the operating system says of a file or directory that cannot be used. -/
inductive FileFault where
  | missing
  | exists
  | notDirectory
  | isDirectory
  | nameTooLong
  | notText
  | other (message : String)
deriving Repr, DecidableEq

def FileFault.message : FileFault → String
  | .missing => "No such file or directory (os error 2)"
  | .exists => "File exists (os error 17)"
  | .notDirectory => "Not a directory (os error 20)"
  | .isDirectory => "Is a directory (os error 21)"
  | .nameTooLong => "File name too long (os error 36)"
  | .notText => "stream did not contain valid UTF-8"
  | .other message => message

/-- A record as it is shown in a report, with the names of its fields. -/
def shownRecord (name : String) (fields : List (String × String)) : String :=
  name ++ " \x7b "
    ++ String.intercalate ", " (fields.map fun (field, text) => field ++ ": " ++ text) ++ " \x7d"

def shownCoin (c : Coin) : String :=
  shownRecord "Coin" [
    ("denom", Text.quoted c.denom),
    ("amount", Text.natural c.amount.toNat)]

def shownReward (r : Reward) : String :=
  shownRecord "TaskReward" [
    ("task_id", Text.natural r.taskId.toNat),
    ("claimant", Text.quoted r.claimant),
    ("amount", shownCoin r.amount),
    ("timestamp", Text.integer r.timestamp.toInt),
    ("tx_hash", Text.quoted r.txHash)]

def shownResponse : Response → String
  | .created id => shownRecord "Created" [("id", Text.natural id.toNat)]
  | .updated id status =>
    shownRecord "Updated" [("id", Text.natural id.toNat), ("status", status.label)]
  | .deleted id => shownRecord "Deleted" [("id", Text.natural id.toNat)]
  | .approved reward => shownRecord "Approved" [("reward", shownReward reward)]
  | .paramsUpdated => "ParamsUpdated"

/-- A failure and its causes, each the cause of the one before. -/
structure Report where
  failure : String
  causes : List String
deriving Repr, DecidableEq

namespace Report

def plain (failure : String) : Report :=
  ⟨failure, []⟩

/-- A failure that this one is the cause of. -/
def within (r : Report) (failure : String) : Report :=
  ⟨failure, r.failure :: r.causes⟩

/-- An answer that is none to the message that was sent. -/
def unexpected (answer : Response) : Report :=
  plain ("unexpected response " ++ shownResponse answer)

/-- A refusal. What is wrong with a task is the cause of its refusal. -/
def ofRefusal : Refusal → Report
  | .badTask fault => ⟨(Refusal.badTask fault).message, [fault.message]⟩
  | refusal => plain refusal.message

/-- A cause behind what introduces it, and with its further lines indented. -/
def indented (introduction indent : String) (cause : String) : String :=
  introduction ++ String.intercalate ("\n" ++ indent) (cause.splitOn "\n")

/-- Causes with their numbers, counted on from `start`. -/
def numbered (start : Nat) : List String → List String
  | [] => []
  | cause :: rest =>
    indented ("    " ++ Text.natural start ++ ": ") "       " cause :: numbered (start + 1) rest

def text (r : Report) : String :=
  let head := "Error: " ++ r.failure ++ "\n"
  match r.causes with
  | [] => head
  | [cause] => head ++ "\nCaused by:\n" ++ indented "    " "    " cause ++ "\n"
  | causes =>
    head ++ "\nCaused by:\n" ++ String.intercalate "\n" (numbered 0 causes) ++ "\n"

end Report

end BountyBoard.CommandLine

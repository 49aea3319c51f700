import BountyBoard.Params

/-!
# Evidence

What a worker hands in to show that a task is done, and what a task keeps
of it: the evidence itself until the creator rejects it, the reason of the
rejection afterwards.
-/

namespace BountyBoard

/-- Evidence that a task is done. -/
structure Evidence where
  hash : String
  /-- One of the kinds that the parameters allow. -/
  kind : String
  /-- Anything handed in along with it: a link, a short text. -/
  data : Option String
  /-- When the evidence was made, by the worker's own account. -/
  timestamp : Time
deriving Repr, DecidableEq

namespace Evidence

inductive Fault where
  | noHash
  | kindNotAllowed (kind : String) (allowed : List String)
  | badTimestamp
deriving Repr, DecidableEq

def Fault.message : Fault → String
  | .noHash => "proof hash is required"
  | .kindNotAllowed kind allowed =>
      "proof type " ++ Text.quoted kind ++ " is not allowed (allowed: "
        ++ String.intercalate ", " allowed ++ ")"
  | .badTimestamp => "proof timestamp must be positive"

def fault? (p : Params) (e : Evidence) : Option Fault :=
  if Text.isBlankText e.hash then some .noHash
  else if !p.allows e.kind then some (.kindNotAllowed e.kind p.proofTypes)
  else if e.timestamp ≤ 0 then some .badTimestamp
  else none

/-- Hash, kind and time joined by colons, and the data if there is any. -/
def text (e : Evidence) : String :=
  let head := e.hash ++ ":" ++ e.kind ++ ":" ++ Text.integer e.timestamp.toInt
  match e.data with
  | none => head
  | some data => if data.isEmpty then head else head ++ ":" ++ data

end Evidence

/-- What a task keeps of the evidence for it. -/
inductive Finding where
  /-- Handed in and not yet turned down. -/
  | submitted (evidence : Evidence)
  /-- Turned down. -/
  | rejected (reason : String)
deriving Repr, DecidableEq

namespace Finding

/-- The evidence, unless it was turned down. -/
def evidence? : Finding → Option Evidence
  | submitted evidence => some evidence
  | rejected _ => none

/-- The evidence as text, or the reason behind a mark of rejection. -/
def text : Finding → String
  | submitted evidence => evidence.text
  | rejected reason => "REJECTED: " ++ reason

end Finding

end BountyBoard

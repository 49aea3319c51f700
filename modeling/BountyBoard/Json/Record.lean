import BountyBoard.Amount
import BountyBoard.Json.Basic

/-!
# Records as JSON

How the fields of a record are found in a JSON value. A record is an object
with its fields as members, in any order and among members that are not its
own, or a list of its fields in their order. A field stands in an object at
most once.
-/

namespace BountyBoard.Json

/-- The field of this name, `none` where it is absent. -/
def field? (members : List (String × Json)) (name : String) : Option (Option Json) :=
  match members.filter fun m => m.1 == name with
  | [] => some none
  | [(_, j)] => some (some j)
  | _ => none

/-- The fields of these names. A list has to hold the first `least` of them. -/
def fields (names : List String) (least : Nat) : Json → Option (List (Option Json))
  | .object members => names.mapM (field? members)
  | .array items =>
    if least ≤ items.length ∧ items.length ≤ names.length then
      some (items.map some ++ List.replicate (names.length - items.length) none)
    else none
  | _ => none

/-- Reads a field that has to be there. -/
def required {α : Type} (read : Json → Option α) (j : Option Json) : Option α :=
  j.bind read

/-- Reads a field that may be absent or null. -/
def optional {α : Type} (read : Json → Option α) : Option Json → Option (Option α)
  | none => some none
  | some null => some none
  | some j => (read j).map some

/-- Reads a field that may be absent, and stands for a value then. -/
def withDefault {α : Type} (value : α) (read : Json → Option α) : Option Json → Option α
  | none => some value
  | some j => read j

def readString? : Json → Option String
  | string s => some s
  | _ => none

def readNatural? : Json → Option Nat
  | number (.ofNat n) => some n
  | _ => none

def readAmount? (j : Json) : Option Amount :=
  (readNatural? j).bind Amount.ofNat?

def readCount? (j : Json) : Option Count :=
  (readNatural? j).bind Count.ofNat?

def readTime? : Json → Option Time
  | number n => Time.ofInt? n
  | _ => none

def readList? {α : Type} (read : Json → Option α) : Json → Option (List α)
  | array items => items.mapM read
  | _ => none

def ofOption {α : Type} (write : α → Json) : Option α → Json
  | none => null
  | some a => write a

end BountyBoard.Json

/-!
# JSON values

The values that the records of the board are written as. Numbers are whole,
and an object keeps its members in the order they are written in.
-/

namespace BountyBoard

inductive Json where
  | null
  | bool (b : Bool)
  | number (n : Int)
  | string (s : String)
  | array (items : List Json)
  | object (members : List (String × Json))
  /-- A well-formed value that no record has a use for: a number that is not
  written as a whole number, a string with half a surrogate pair, or an
  object with such a string among its names. -/
  | other
deriving Repr

namespace Json

/-- Puts a member before the first member whose name comes after its own. -/
def insertMember (m : String × Json) : List (String × Json) → List (String × Json)
  | [] => [m]
  | first :: rest =>
    if first.1 < m.1 then first :: insertMember m rest else m :: first :: rest

mutual

/-- The value with the members of every object in alphabetical order. -/
def sorted : Json → Json
  | null => null
  | bool b => bool b
  | number n => number n
  | string s => string s
  | array items => array (sortedItems items)
  | object members => object (sortedMembers members)
  | other => other

def sortedItems : List Json → List Json
  | [] => []
  | j :: rest => sorted j :: sortedItems rest

def sortedMembers : List (String × Json) → List (String × Json)
  | [] => []
  | (name, j) :: rest => insertMember (name, sorted j) (sortedMembers rest)

end

end Json

end BountyBoard

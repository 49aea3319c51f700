import BountyBoard.Json.Basic
import BountyBoard.Json.Token

/-!
# Reading JSON

The value that a JSON text stands for. The text has to be JSON to the
letter, one value and nothing after it.
-/

namespace BountyBoard.Json

/-- The object with these members. One whose name is not to be read spoils it. -/
def objectOf (members : List (Option String × Json)) : Json :=
  match members.mapM fun (name, j) => name.map fun name => (name, j) with
  | some members => .object members
  | none => .other

/-- The name that a token gives to a member, if it can be one. -/
def memberName? : Token → Option (Option String)
  | .string s => some (some s)
  | .garbled => some none
  | _ => none

mutual

/-- Reads a value, with at most `fuel` steps one within the other. -/
def parseValue : Nat → List Token → Option (Json × List Token)
  | 0, _ => none
  | _ + 1, [] => none
  | fuel + 1, token :: rest =>
    match token with
    | .null => some (.null, rest)
    | .bool b => some (.bool b, rest)
    | .number n => some (.number n, rest)
    | .string s => some (.string s, rest)
    | .fraction => some (.other, rest)
    | .garbled => some (.other, rest)
    | .openBracket =>
      match rest with
      | .closeBracket :: rest => some (.array [], rest)
      | _ => (parseItems fuel rest).map fun (items, rest) => (.array items, rest)
    | .openBrace =>
      match rest with
      | .closeBrace :: rest => some (.object [], rest)
      | _ => (parseMembers fuel rest).map fun (members, rest) => (objectOf members, rest)
    | _ => none

/-- Reads the items of a list, to its closing bracket. -/
def parseItems : Nat → List Token → Option (List Json × List Token)
  | 0, _ => none
  | fuel + 1, ts =>
    match parseValue fuel ts with
    | some (j, .comma :: rest) =>
      (parseItems fuel rest).map fun (items, rest) => (j :: items, rest)
    | some (j, .closeBracket :: rest) => some ([j], rest)
    | _ => none

/-- Reads the members of an object, to its closing brace. -/
def parseMembers : Nat → List Token → Option (List (Option String × Json) × List Token)
  | fuel + 1, token :: .colon :: ts =>
    match memberName? token, parseValue fuel ts with
    | some name, some (j, .comma :: rest) =>
      (parseMembers fuel rest).map fun (members, rest) => ((name, j) :: members, rest)
    | some name, some (j, .closeBrace :: rest) => some ([(name, j)], rest)
    | _, _ => none
  | _, _ => none

end

/-- Reads a text as one value. Two steps a token are enough. -/
def parse (s : String) : Option Json :=
  match tokens s.toList with
  | none => none
  | some ts =>
    match parseValue (2 * ts.length + 1) ts with
    | some (j, []) => some j
    | _ => none

end BountyBoard.Json

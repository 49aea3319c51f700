import BountyBoard.Json.Basic
import BountyBoard.Text.Numeral
import BountyBoard.Text.Quoted

/-!
# Written JSON

How a JSON value is written: one item or member a line, indented by two
spaces a level, with empty lists and objects in one piece. Within a string
only the double quote, the backslash and the controls are escaped.
-/

namespace BountyBoard.Json

/-- A control as the escape of its code, in four hexadecimal digits. -/
def unitEscape (c : Char) : List Char :=
  ['\\', 'u', '0', '0', Nat.digitChar (c.toNat / 16), Nat.digitChar (c.toNat % 16)]

def escape (c : Char) : List Char :=
  if c = '"' then ['\\', '"']
  else if c = '\\' then ['\\', '\\']
  else if c = '\x08' then ['\\', 'b']
  else if c = '\t' then ['\\', 't']
  else if c = '\n' then ['\\', 'n']
  else if c = '\x0c' then ['\\', 'f']
  else if c = '\r' then ['\\', 'r']
  else if c.toNat < 0x20 then unitEscape c
  else [c]

def renderString (s : String) : List Char :=
  '"' :: s.toList.flatMap escape ++ ['"']

def newline (level : Nat) : List Char :=
  '\n' :: List.replicate (2 * level) ' '

mutual

/-- A value that stands on a line of a level. -/
def renderAt (level : Nat) : Json → List Char
  | null => ['n', 'u', 'l', 'l']
  | bool true => ['t', 'r', 'u', 'e']
  | bool false => ['f', 'a', 'l', 's', 'e']
  | number n => (Text.integer n).toList
  | string s => renderString s
  | array [] => ['[', ']']
  | array (j :: rest) =>
      '[' :: newline (level + 1) ++ renderAt (level + 1) j ++ renderItems (level + 1) rest
        ++ newline level ++ [']']
  | object [] => ['\x7b', '\x7d']
  | object ((name, j) :: rest) =>
      '\x7b' :: newline (level + 1) ++ renderString name ++ [':', ' '] ++ renderAt (level + 1) j
        ++ renderMembers (level + 1) rest ++ newline level ++ ['\x7d']
  | other => ['n', 'u', 'l', 'l']

/-- The items after the first one, each behind a comma. -/
def renderItems (level : Nat) : List Json → List Char
  | [] => []
  | j :: rest => ',' :: newline level ++ renderAt level j ++ renderItems level rest

def renderMembers (level : Nat) : List (String × Json) → List Char
  | [] => []
  | (name, j) :: rest =>
      ',' :: newline level ++ renderString name ++ [':', ' '] ++ renderAt level j
        ++ renderMembers level rest

end

def render (j : Json) : String :=
  String.ofList (renderAt 0 j)

end BountyBoard.Json

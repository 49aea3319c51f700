import BountyBoard.Address.Base58
import BountyBoard.Text.Numeral
import BountyBoard.Text.Quoted

/-!
# Addresses

Whoever acts on the board is known by an address: thirty-two bytes, written
as base-58 text. The board compares addresses as texts, so a text is checked
to be an address before it is compared with anything.
-/

namespace BountyBoard

/-- The thirty-two bytes that identify a principal. -/
structure Address where
  bytes : List UInt8
  length_bytes : bytes.length = 32
deriving Repr, DecidableEq

namespace Address

/-- Why a text is no address. -/
inductive Fault where
  | empty
  | badCharacter (text : String) (character : Char) (index : Nat)
  | notAscii (text : String) (index : Nat)
  | wrongLength (text : String) (count : Nat)
deriving Repr, DecidableEq

def Fault.message : Fault → String
  | .empty => "invalid address: empty address string"
  | .badCharacter text c index =>
      "invalid address: " ++ text ++ ": provided string contained invalid character "
        ++ Text.quotedChar c ++ " at byte " ++ Text.natural index
  | .notAscii text index =>
      "invalid address: " ++ text ++ ": provided string contained non-ascii character"
        ++ " starting at byte " ++ Text.natural index
  | .wrongLength text count =>
      "invalid address: " ++ text ++ ": expected 32 bytes, got " ++ Text.natural count

/-- The address as base-58 text. -/
def text (a : Address) : String :=
  String.ofList (Base58.encode a.bytes)

/-- Reads an address. All characters before the first one outside the
base-58 alphabet are ASCII, so its place in characters is its place in
bytes. -/
def ofText (s : String) : Except Fault Address :=
  if s.isEmpty then .error .empty
  else
    match Base58.decode s.toList with
    | .error (index, c) =>
        if 127 < c.toNat then .error (.notAscii s index) else .error (.badCharacter s c index)
    | .ok bytes =>
        if h : bytes.length = 32 then .ok ⟨bytes, h⟩
        else .error (.wrongLength s bytes.length)

/-- The text of the address that a text stands for. -/
def canonical (s : String) : Except Fault String :=
  (ofText s).map text

/-- The first eight characters, enough for a person to tell addresses apart. -/
def abbreviation (a : Address) : String :=
  String.ofList (a.text.toList.take 8)

end Address

end BountyBoard

import BountyBoard.Text.Printable

/-!
# Quoted text

How a message shows a text or a single character in quotes, so that a
reader sees where it begins and ends and every invisible character in it.
The common controls have a letter of their own, the quote in use and the
backslash stand behind a backslash, and any other character without a shape
of its own is written as its code point in hexadecimal.
-/

namespace BountyBoard.Text

def hexNumeral (n : Nat) : List Char :=
  Nat.toDigits 16 n

/-- One character as it stands between two quotes `quote`. -/
def escape (quote c : Char) : List Char :=
  if c = '\x00' then ['\\', '0']
  else if c = '\t' then ['\\', 't']
  else if c = '\n' then ['\\', 'n']
  else if c = '\r' then ['\\', 'r']
  else if c = '\\' ∨ c = quote then ['\\', c]
  else if isPrintable c then [c]
  else ['\\', 'u', '\x7b'] ++ hexNumeral c.toNat ++ ['\x7d']

def quoted (s : String) : String :=
  String.ofList ('"' :: s.toList.flatMap (escape '"') ++ ['"'])

def quotedChar (c : Char) : String :=
  String.ofList ('\'' :: escape '\'' c ++ ['\''])

end BountyBoard.Text

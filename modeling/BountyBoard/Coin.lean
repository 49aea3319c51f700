import BountyBoard.Amount
import BountyBoard.Text.Blank
import BountyBoard.Text.Numeral
import BountyBoard.Text.Quoted

/-!
# Coins

An amount of one denomination, written as the amount followed by the
denomination: `1000stake`. A denomination begins with a letter, so the text
of a coin falls apart in one way only.
-/

namespace BountyBoard

structure Coin where
  amount : Amount
  denom : String
deriving Repr, DecidableEq

namespace Coin

def validDenomList : List Char → Bool
  | [] => false
  | c :: r => c.isAlpha && r.all fun d => d.isAlphanum || d == '/'

/-- A denomination: an ASCII letter, followed by ASCII letters, digits and slashes. -/
def validDenom (denom : String) : Bool :=
  validDenomList denom.toList

def isZero (c : Coin) : Bool :=
  c.amount.toNat == 0

/-- The amount followed by the denomination. -/
def text (c : Coin) : String :=
  Text.natural c.amount.toNat ++ c.denom

/-- Why a text is no coin. Each fault holds the text without the white
space at its ends. -/
inductive Fault where
  | noDenom (text : String)
  | noAmount (text : String)
  | badDenom (text denom : String)
  | tooLarge (text : String)
deriving Repr, DecidableEq

def Fault.message : Fault → String
  | .noDenom text => "invalid coin: " ++ text ++ ": missing denom"
  | .noAmount text => "invalid coin: " ++ text ++ ": missing amount"
  | .badDenom text denom =>
      "invalid coin: " ++ text ++ ": invalid denom " ++ Text.quoted denom
  | .tooLarge text =>
      "invalid coin: " ++ text ++ ": number too large to fit in target type"

/-- Reads a coin; white space at the two ends does not matter. -/
def ofText (s : String) : Except Fault Coin :=
  let cs := Text.trimList s.toList
  let digits := cs.takeWhile Char.isDigit
  let denom := cs.dropWhile Char.isDigit
  if denom.isEmpty then .error (.noDenom (String.ofList cs))
  else if digits.isEmpty then .error (.noAmount (String.ofList cs))
  else if !validDenomList denom then
    .error (.badDenom (String.ofList cs) (String.ofList denom))
  else
    match Amount.ofNat? (Text.digitsValue digits) with
    | none => .error (.tooLarge (String.ofList cs))
    | some amount => .ok ⟨amount, String.ofList denom⟩

end Coin

end BountyBoard

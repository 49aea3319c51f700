import BountyBoard.Text.Hex
import BountyBoard.Text.Numeral

/-!
# The tokens of JSON text

A JSON text falls apart into punctuation, names of constants, numbers and
strings, with white space between them. The white space is that of JSON:
space, tab, line feed and carriage return.
-/

namespace BountyBoard.Json

/-- The smallest parts that a text is made of. -/
inductive Token where
  | openBrace
  | closeBrace
  | openBracket
  | closeBracket
  | comma
  | colon
  | null
  | bool (b : Bool)
  | number (n : Int)
  /-- A number with a fraction or an exponent, or a zero with a minus sign. -/
  | fraction
  | string (s : String)
  /-- A string with half a surrogate pair. -/
  | garbled
deriving Repr, DecidableEq

/-! ## Strings -/

/-- A part of a string: a character as it stands, or the code unit of an escape. -/
inductive Piece where
  | char (c : Char)
  | unit (n : Nat)
deriving Repr, DecidableEq

def escapeChar? (c : Char) : Option Char :=
  if c = '"' then some '"'
  else if c = '\\' then some '\\'
  else if c = '/' then some '/'
  else if c = 'b' then some '\x08'
  else if c = 'f' then some '\x0c'
  else if c = 'n' then some '\n'
  else if c = 'r' then some '\r'
  else if c = 't' then some '\t'
  else none

/-- The code unit that four hexadecimal digits stand for. -/
def unitOfDigits (a b c d : Char) : Option Nat := do
  let a ← Text.hexDigitValue? a
  let b ← Text.hexDigitValue? b
  let c ← Text.hexDigitValue? c
  let d ← Text.hexDigitValue? d
  return ((a * 16 + b) * 16 + c) * 16 + d

/-- Reads the parts of a string from behind its opening quote to its closing
quote. A control cannot stand in a string as it is. -/
def readPieces : List Char → Option (List Piece × List Char)
  | [] => none
  | '"' :: rest => some ([], rest)
  | '\\' :: 'u' :: a :: b :: c :: d :: rest => do
    let n ← unitOfDigits a b c d
    let (pieces, rest) ← readPieces rest
    return (.unit n :: pieces, rest)
  | '\\' :: e :: rest => do
    let c ← escapeChar? e
    let (pieces, rest) ← readPieces rest
    return (.char c :: pieces, rest)
  | c :: rest =>
    if c = '\\' ∨ c.toNat < 0x20 then none
    else do
      let (pieces, rest) ← readPieces rest
      return (.char c :: pieces, rest)

/-- The characters that the parts of a string stand for. Two code units of a
surrogate pair are one character, and half a pair is none. -/
def joinPieces : List Piece → Option (List Char)
  | [] => some []
  | .char c :: rest => (joinPieces rest).map (c :: ·)
  | .unit high :: .unit low :: rest =>
    if high < 0xD800 ∨ 0xDFFF < high then
      (joinPieces (.unit low :: rest)).map (Char.ofNat high :: ·)
    else if high < 0xDC00 ∧ 0xDC00 ≤ low ∧ low ≤ 0xDFFF then
      (joinPieces rest).map
        (Char.ofNat (0x10000 + (high - 0xD800) * 0x400 + (low - 0xDC00)) :: ·)
    else none
  | .unit n :: rest =>
    if n < 0xD800 ∨ 0xDFFF < n then (joinPieces rest).map (Char.ofNat n :: ·) else none

def readString (cs : List Char) : Option (Token × List Char) := do
  let (pieces, rest) ← readPieces cs
  match joinPieces pieces with
  | some text => return (.string (String.ofList text), rest)
  | none => return (.garbled, rest)

/-! ## Numbers -/

/-- Drops the digits of a fraction or an exponent, of which there has to be one. -/
def skipDigits (cs : List Char) : Option (List Char) :=
  if (cs.takeWhile Char.isDigit).isEmpty then none else some (cs.dropWhile Char.isDigit)

/-- Drops an exponent, if there is one. -/
def skipExponent : List Char → Option (List Char)
  | [] => some []
  | e :: rest =>
    if e = 'e' ∨ e = 'E' then
      match rest with
      | '+' :: digits => skipDigits digits
      | '-' :: digits => skipDigits digits
      | digits => skipDigits digits
    else some (e :: rest)

def hasExponent : List Char → Bool
  | [] => false
  | e :: _ => e = 'e' || e = 'E'

/-- Reads a number without its sign. Zero has no negative, so `-0` is not
written as a whole number. -/
def readUnsigned (negative : Bool) (cs : List Char) : Option (Token × List Char) :=
  let digits := cs.takeWhile Char.isDigit
  let rest := cs.dropWhile Char.isDigit
  if digits.isEmpty ∨ (digits.head? = some '0' ∧ digits.length ≠ 1) then none
  else
    match rest with
    | '.' :: after => do
      let rest ← skipDigits after
      let rest ← skipExponent rest
      return (.fraction, rest)
    | _ =>
      if hasExponent rest then (skipExponent rest).map fun rest => (.fraction, rest)
      else
        let n := Text.digitsValue digits
        if negative ∧ n = 0 then some (.fraction, rest)
        else some (.number (if negative then -(n : Int) else n), rest)

/-! ## Texts -/

/-- The characters that may stand between tokens. -/
def isSpace (c : Char) : Bool :=
  c == ' ' || c == '\t' || c == '\n' || c == '\r'

/-- Reads one token, of which `c` is the first character. -/
def readToken (c : Char) (rest : List Char) : Option (Token × List Char) :=
  match c, rest with
  | '\x7b', rest => some (.openBrace, rest)
  | '\x7d', rest => some (.closeBrace, rest)
  | '[', rest => some (.openBracket, rest)
  | ']', rest => some (.closeBracket, rest)
  | ',', rest => some (.comma, rest)
  | ':', rest => some (.colon, rest)
  | '"', rest => readString rest
  | 'n', 'u' :: 'l' :: 'l' :: rest => some (.null, rest)
  | 't', 'r' :: 'u' :: 'e' :: rest => some (.bool true, rest)
  | 'f', 'a' :: 'l' :: 's' :: 'e' :: rest => some (.bool false, rest)
  | '-', rest => readUnsigned true rest
  | c, rest => readUnsigned false (c :: rest)

/-- Reads tokens to the end, in at most `fuel` steps, after the tokens
`before` in reverse order. -/
def readTokens : Nat → List Token → List Char → Option (List Token)
  | _, before, [] => some before.reverse
  | 0, _, _ :: _ => none
  | fuel + 1, before, c :: rest =>
    if isSpace c then readTokens fuel before rest
    else
      match readToken c rest with
      | none => none
      | some (token, rest) => readTokens fuel (token :: before) rest

/-- The tokens of a text. Every step takes at least one character, so there
are enough steps for all. -/
def tokens (cs : List Char) : Option (List Token) :=
  readTokens cs.length [] cs

end BountyBoard.Json

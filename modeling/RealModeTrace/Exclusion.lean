import RealModeTrace.Text.Blank
import RealModeTrace.Text.Lines
import RealModeTrace.Text.Utf8

/-!
# Interrupt exclusion lists

A list names the interrupts that are never logged: tokens of two digits in base sixteen between
commas. Blanks around a token do not count, an empty token is ignored, and a malformed one excludes
nothing. Tokens are looked at byte by byte.

* `tokens`: the trimmed tokens;
* `names`: a token is, but for case, the two digits of an interrupt;
* `excludes`: the interrupt is named by a token;
* `firstMalformed?`: the first token that is neither empty nor two digits.
-/

namespace RealModeTrace.Exclusion

/-- The tokens of a list, trimmed. -/
def tokens (list : String) : List String :=
  (Text.splitAt ',' list).map Text.trim

/-- The bytes of a token. -/
def tokenBytes (token : String) : List UInt8 :=
  (Text.utf8 token).data.toList

/-- A letter in upper case, and any other byte as it is. -/
def upperByte (b : UInt8) : UInt8 :=
  if 0x61 ≤ b && b ≤ 0x7A then b - 0x20 else b

/-- The byte of a digit in base sixteen, in upper case. -/
def digitByte (n : UInt8) : UInt8 :=
  if n < 10 then 0x30 + n else 0x41 + (n - 10)

/-- The token is the two digits of an interrupt, in either case. -/
def names (number : UInt8) (token : String) : Bool :=
  match tokenBytes token with
  | [high, low] =>
    upperByte high == digitByte (number >>> 4) && upperByte low == digitByte (number &&& 0x0F)
  | _ => false

/-- The list excludes an interrupt. -/
def excludes (list : String) (number : UInt8) : Bool :=
  list != "" && (tokens list).any (names number)

/-- The byte of a digit in base sixteen, in either case. -/
def isDigitByte (b : UInt8) : Bool :=
  (0x30 ≤ b && b ≤ 0x39) || (0x41 ≤ b && b ≤ 0x46) || (0x61 ≤ b && b ≤ 0x66)

/-- A token that a list may hold. -/
def wellFormed (token : String) : Bool :=
  token == "" || ((tokenBytes token).length == 2 && (tokenBytes token).all isDigitByte)

/-- The first token that a list may not hold. -/
def firstMalformed? (list : String) : Option String :=
  (tokens list).find? fun token => !wellFormed token

end RealModeTrace.Exclusion

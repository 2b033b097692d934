/-!
# Numerals

* `decimal`, `signed`, `decimalPad`: base ten, with the least number of digits or zero-padded;
* `hexByte`, `hexWord`, `hexShort`: base sixteen in upper case, of two digits, of four, or of two to
  four as the number needs;
* `digitValue`, `natOfDigits`: the readers, and `isDecimal` and `isDigitOf` for what they read.
-/

namespace RealModeTrace.Text

/-- The digits zero to fifteen, in upper case. -/
def hexDigit (n : Nat) : Char :=
  if n < 10 then Char.ofNat ('0'.toNat + n) else Char.ofNat ('A'.toNat + (n - 10))

/-- The value of a digit in base sixteen, in either case. -/
def digitValue (c : Char) : Option Nat :=
  if '0' ≤ c ∧ c ≤ '9' then some (c.toNat - '0'.toNat)
  else if 'a' ≤ c ∧ c ≤ 'f' then some (c.toNat - 'a'.toNat + 10)
  else if 'A' ≤ c ∧ c ≤ 'F' then some (c.toNat - 'A'.toNat + 10)
  else none

/-- A digit of a base of at most sixteen. -/
def isDigitOf (base : Nat) (c : Char) : Bool :=
  (digitValue c).any (· < base)

/-- A digit of base ten. -/
def isDecimal (c : Char) : Bool :=
  '0' ≤ c && c ≤ '9'

/-- The number that digits of a base write, most significant first. -/
def natOfDigits (base : Nat) (cs : List Char) : Nat :=
  cs.foldl (fun n c => n * base + (digitValue c).getD 0) 0

/-- A number in base ten. -/
def decimal (n : Nat) : String :=
  String.ofList (Nat.toDigits 10 n)

/-- An integer in base ten, with a sign when it is negative. -/
def signed : Int → String
  | .ofNat n => decimal n
  | .negSucc n => "-" ++ decimal (n + 1)

/-- A number in base ten, padded with zeros to at least `width` digits. -/
def decimalPad (width n : Nat) : String :=
  String.ofList ((Nat.toDigits 10 n).leftpad width '0')

/-- The two digits of a byte. -/
def hexByte (b : UInt8) : String :=
  String.ofList [hexDigit (b.toNat / 16), hexDigit (b.toNat % 16)]

/-- The four digits of a word. -/
def hexWord (w : UInt16) : String :=
  String.ofList [hexDigit (w.toNat / 4096), hexDigit (w.toNat / 256 % 16),
    hexDigit (w.toNat / 16 % 16), hexDigit (w.toNat % 16)]

/-- A word in base sixteen with at least two digits and no other leading zero. -/
def hexShort (w : UInt16) : String :=
  if w.toNat < 0x100 then hexByte w.toUInt8
  else if w.toNat < 0x1000 then
    String.ofList [hexDigit (w.toNat / 256), hexDigit (w.toNat / 16 % 16), hexDigit (w.toNat % 16)]
  else hexWord w

theorem digitValue_hexDigit : ∀ n, n < 16 → digitValue (hexDigit n) = some n := by
  decide

end RealModeTrace.Text

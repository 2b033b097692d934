import RealModeTrace.Text.Magnitude
import RealModeTrace.Toml.DateTime
import RealModeTrace.Toml.Value

/-!
# Numbers in TOML

* `readInteger`: integers of sixty-four bits, in base ten with a sign and without leading zeros, or
  in base sixteen, eight or two; an underscore may stand between two digits;
* `readFloat`: floats; a numeral too large for a double is refused unless it is negative;
* `readNumber`: a number or a date.

Each reader gives what follows the longest text that it can read at the head, or nothing.
-/

namespace RealModeTrace.Toml

/-! ### Digits -/

/-- The digits at the head, an underscore before each of them allowed. -/
def digitsTail (isDigit : Char → Bool) : List Char → List Char × List Char
  | '_' :: c :: cs =>
    if isDigit c then
      let (ds, r) := digitsTail isDigit cs
      (c :: ds, r)
    else ([], '_' :: c :: cs)
  | c :: cs =>
    if isDigit c then
      let (ds, r) := digitsTail isDigit cs
      (c :: ds, r)
    else ([], c :: cs)
  | [] => ([], [])

/-- One or more digits at the head, with underscores between them. -/
def readDigits (isDigit : Char → Bool) : List Char → Option (List Char × List Char)
  | c :: cs =>
    if isDigit c then
      let (ds, r) := digitsTail isDigit cs
      some (c :: ds, r)
    else none
  | [] => none

/-- The sign at the head: whether it is a minus, and what follows. -/
def readSign : List Char → Bool × List Char
  | '-' :: r => (true, r)
  | '+' :: r => (false, r)
  | r => (false, r)

/-- Digits of base ten without a leading zero. -/
def readWhole : List Char → Option (List Char × List Char)
  | '0' :: r => some (['0'], r)
  | r => readDigits Text.isDecimal r

/-! ### Integers -/

/-- Integers lie below this bound and not below its negative. -/
def integerBound : Nat := 0x8000000000000000

/-- Digits of a base after its mark. -/
def readBased (base : Nat) (cs : List Char) : Option (Value × List Char) := do
  let (ds, r) ← readDigits (Text.isDigitOf base) cs
  let n := Text.natOfDigits base ds
  if n < integerBound then some (.integer n, r) else none

/-- An integer. -/
def readInteger : List Char → Option (Value × List Char)
  | '0' :: 'x' :: r => readBased 16 r
  | '0' :: 'o' :: r => readBased 8 r
  | '0' :: 'b' :: r => readBased 2 r
  | cs => do
    let (negative, r) := readSign cs
    let (ds, r) ← readWhole r
    let n := Text.natOfDigits 10 ds
    if negative then
      if n ≤ integerBound then some (.integer (-n), r) else none
    else if n < integerBound then some (.integer n, r) else none

/-! ### Floats -/

/-- The digits after a point, if there is one. -/
def readFraction : List Char → Option (List Char × List Char)
  | '.' :: r => readDigits Text.isDecimal r
  | _ => none

/-- The exponent, if there is one. -/
def readExponent : List Char → Option (Int × List Char)
  | c :: r =>
    if c = 'e' || c = 'E' then do
      let (negative, r) := readSign r
      let (ds, r) ← readDigits Text.isDecimal r
      let n := Text.natOfDigits 10 ds
      some (if negative then -n else n, r)
    else none
  | [] => none

/-- The digits, fraction and exponent of a float, which has one of the last two at least. -/
def readParts (cs : List Char) : Option ((List Char × List Char × Int) × List Char) := do
  let (whole, r) ← readWhole cs
  match readExponent r with
  | some (e, r) => some ((whole, [], e), r)
  | none =>
    let (fraction, r) ← readFraction r
    match readExponent r with
    | some (e, r) => some ((whole, fraction, e), r)
    | none => some ((whole, fraction, 0), r)

/-- A float written out, or `inf` or `nan`. -/
def readFloat (cs : List Char) : Option (Value × List Char) := do
  let (negative, r) := readSign cs
  match r with
  | 'i' :: 'n' :: 'f' :: r => some (.float, r)
  | 'n' :: 'a' :: 'n' :: r => some (.float, r)
  | r =>
    let ((whole, fraction, e), r) ← readParts r
    let digits := Text.natOfDigits 10 (whole ++ fraction)
    if !negative && Text.exceedsDouble digits (e - fraction.length) then none
    else some (.float, r)

/-- A number or a date: the first of date, float and integer that can be read. -/
def readNumber (cs : List Char) : Option (Value × List Char) :=
  (readDateTime cs).map (fun result => (.dateTime result.1, result.2)) <|>
    readFloat cs <|> readInteger cs

end RealModeTrace.Toml

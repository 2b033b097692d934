import RealModeTrace.Json.Value
import RealModeTrace.Text.Magnitude
import RealModeTrace.Text.Numeral

/-!
# Reading JSON

Strict JSON: no byte order mark, no comments, no comma before a closing bracket, no leading zeros,
no raw control characters in strings, no lone surrogates. Arrays and objects nest at most
`nestingLimit` deep, and a number too large for a double is refused.

* `readString`, `readNumber`, `readValue`: the value at the head of a text and what follows it;
* `parse?`: the value that a whole text is.
-/

namespace RealModeTrace.Json

/-- The deepest nesting of arrays and objects. -/
def nestingLimit : Nat := 127

/-- A character that may stand between the parts of a value. -/
def isSpace (c : Char) : Bool :=
  c == ' ' || c == '\t' || c == '\n' || c == '\r'

/-- The text without white space at its head. -/
def skipSpaces (cs : List Char) : List Char :=
  cs.dropWhile isSpace

/-! ### Strings -/

/-- The sixteen bits that four digits write. -/
def readUnit (cs : List Char) : Option (Nat × List Char) :=
  let digits := cs.take 4
  if digits.length = 4 && digits.all (Text.isDigitOf 16) then
    some (Text.natOfDigits 16 digits, cs.drop 4)
  else none

/-- The second half of a character outside the first plane. -/
def readLowSurrogate : List Char → Option (Nat × List Char)
  | '\\' :: 'u' :: r => (readUnit r).filter fun u => 0xDC00 ≤ u.1 && u.1 ≤ 0xDFFF
  | _ => none

/-- The character that one unit or a pair of surrogates writes. -/
def readUnicode (cs : List Char) : Option (Char × List Char) := do
  let (u, r) ← readUnit cs
  if 0xDC00 ≤ u && u ≤ 0xDFFF then none
  else if 0xD800 ≤ u && u ≤ 0xDBFF then
    let (v, r) ← readLowSurrogate r
    some (Char.ofNat (0x10000 + (u - 0xD800) * 0x400 + (v - 0xDC00)), r)
  else some (Char.ofNat u, r)

/-- The character that an escape stands for, after the backslash. -/
def readEscape : List Char → Option (Char × List Char)
  | '"' :: r => some ('"', r)
  | '\\' :: r => some ('\\', r)
  | '/' :: r => some ('/', r)
  | 'b' :: r => some ('\x08', r)
  | 'f' :: r => some ('\x0c', r)
  | 'n' :: r => some ('\n', r)
  | 'r' :: r => some ('\r', r)
  | 't' :: r => some ('\t', r)
  | 'u' :: r => readUnicode r
  | _ => none

theorem length_of_readUnit {cs r : List Char} {u : Nat} (h : readUnit cs = some (u, r)) :
    r.length ≤ cs.length := by
  simp only [readUnit, Option.ite_none_right_eq_some, Option.some.injEq, Prod.mk.injEq] at h
  obtain ⟨-, -, rfl⟩ := h
  simp

theorem length_of_readLowSurrogate {cs r : List Char} {u : Nat}
    (h : readLowSurrogate cs = some (u, r)) : r.length ≤ cs.length := by
  unfold readLowSurrogate at h
  split at h
  · have := length_of_readUnit (Option.filter_eq_some_iff.1 h).1
    simp only [List.length_cons]
    omega
  · simp at h

theorem length_of_readUnicode {cs r : List Char} {c : Char} (h : readUnicode cs = some (c, r)) :
    r.length ≤ cs.length := by
  simp only [readUnicode, Option.bind_eq_bind, Option.bind_eq_some_iff, Prod.exists] at h
  obtain ⟨u, s, hu, h⟩ := h
  have hs := length_of_readUnit hu
  split at h
  · simp at h
  · split at h
    · simp only [Option.bind_eq_some_iff, Prod.exists, Option.some.injEq, Prod.mk.injEq] at h
      obtain ⟨v, t, hv, -, rfl⟩ := h
      have := length_of_readLowSurrogate hv
      omega
    · simp only [Option.some.injEq, Prod.mk.injEq] at h
      obtain ⟨-, rfl⟩ := h
      exact hs

theorem length_of_readEscape {cs r : List Char} {c : Char} (h : readEscape cs = some (c, r)) :
    r.length < cs.length := by
  unfold readEscape at h
  split at h
  case h_9 => exact Nat.lt_succ_of_le (length_of_readUnicode h)
  case h_10 => simp at h
  all_goals
    simp only [Option.some.injEq, Prod.mk.injEq] at h
    obtain ⟨-, rfl⟩ := h
    simp

/-- The characters of a string after its opening quote, and what follows the closing one. -/
def readString : List Char → Option (List Char × List Char)
  | [] => none
  | c :: cs =>
    if c = '"' then some ([], cs)
    else if c = '\\' then
      match _h : readEscape cs with
      | some (e, r) => (readString r).map fun result => (e :: result.1, result.2)
      | none => none
    else if c < ' ' then none
    else (readString cs).map fun result => (c :: result.1, result.2)
termination_by cs => cs.length
decreasing_by
  · have := length_of_readEscape _h; simp only [List.length_cons]; omega
  · simp

/-! ### Numbers -/

/-- The digits before the point: zero alone, or without a zero at their head. -/
def readWhole : List Char → Option (List Char × List Char)
  | [] => none
  | c :: r =>
    if c = '0' then
      if r.head?.any Text.isDecimal then none else some (['0'], r)
    else if Text.isDecimal c then some (c :: r.takeWhile Text.isDecimal, r.dropWhile Text.isDecimal)
    else none

/-- The digits after a point: none without a point, at least one after it. -/
def readFraction : List Char → Option (List Char × List Char)
  | '.' :: r =>
    if r.head?.any Text.isDecimal then
      some (r.takeWhile Text.isDecimal, r.dropWhile Text.isDecimal)
    else none
  | r => some ([], r)

/-- The exponent, if there is one: at least one digit after `e` and a sign. -/
def readExponent : List Char → Option (Option Int × List Char)
  | [] => some (none, [])
  | c :: r =>
    if c = 'e' || c = 'E' then
      let (negative, r) := match r with
        | '-' :: r => (true, r)
        | '+' :: r => (false, r)
        | r => (false, r)
      if r.head?.any Text.isDecimal then
        let n : Int := Text.natOfDigits 10 (r.takeWhile Text.isDecimal)
        some (some (if negative then -n else n), r.dropWhile Text.isDecimal)
      else none
    else some (none, c :: r)

/-- Add digits to a significand as long as it fits sixty-four bits; the digits that are left. -/
def absorb : Nat → List Char → Nat × List Char
  | m, [] => (m, [])
  | m, c :: cs =>
    let next := m * 10 + (Text.digitValue c).getD 0
    if next < UInt64.size then absorb next cs else (m, c :: cs)

/-- The numeral is too large for a double. -/
def tooLarge (whole fraction : List Char) (exponent : Int) : Bool :=
  let (m, wholeLeft) := absorb 0 whole
  let (m, fractionLeft) := absorb m fraction
  Text.productExceedsDouble m
    (wholeLeft.length - (fraction.length - fractionLeft.length : Nat) + exponent)

/-- The negative of the least integer that is kept as a number. -/
def negativeBound : Nat := 0x8000000000000000

/-- The value of a numeral without point and exponent, if it is kept as a number. -/
def integerOf? (negative : Bool) (whole : List Char) : Option Int :=
  let n := Text.natOfDigits 10 whole
  if negative then
    if n ≠ 0 ∧ n ≤ negativeBound then some (-n) else none
  else if n < UInt64.size then some n else none

/-- A number. -/
def readNumber (cs : List Char) : Option (Json × List Char) := do
  let (negative, r) := match cs with
    | '-' :: r => (true, r)
    | r => (false, r)
  let (whole, r) ← readWhole r
  let (fraction, r) ← readFraction r
  let (exponent, r) ← readExponent r
  if tooLarge whole fraction (exponent.getD 0) then none
  else match fraction, exponent, integerOf? negative whole with
    | [], none, some n => some (.integer n, r)
    | _, _, _ => some (.real (String.ofList (cs.take (cs.length - r.length))), r)

/-! ### Values -/

/-- A reader gives a value and what follows it. -/
abbrev ValueReader := List Char → Option (Json × List Char)

/-- The items of an array that has some, at most `limit` of them, and what follows its bracket. -/
def readItems (item : ValueReader) : (limit : Nat) → List Char → Option (List Json × List Char)
  | 0, _ => none
  | limit + 1, cs => do
    let (v, r) ← item cs
    match skipSpaces r with
    | ']' :: r => some ([v], r)
    | ',' :: r =>
      let (vs, r) ← readItems item limit r
      some (v :: vs, r)
    | _ => none

/-- The name of a member and what follows its colon. -/
def readName (cs : List Char) : Option (String × List Char) :=
  match skipSpaces cs with
  | '"' :: r => do
    let (name, r) ← readString r
    match skipSpaces r with
    | ':' :: r => some (String.ofList name, r)
    | _ => none
  | _ => none

/-- The members of an object that has some, at most `limit` of them, and what follows its brace. -/
def readMembers (item : ValueReader) :
    (limit : Nat) → List Char → Option (List (String × Json) × List Char)
  | 0, _ => none
  | limit + 1, cs => do
    let (name, r) ← readName cs
    let (v, r) ← item r
    match skipSpaces r with
    | '}' :: r => some ([(name, v)], r)
    | ',' :: r =>
      let (vs, r) ← readMembers item limit r
      some ((name, v) :: vs, r)
    | _ => none

/-- An array after its opening bracket. -/
def readArray (item : ValueReader) (limit : Nat) (cs : List Char) : Option (Json × List Char) :=
  match skipSpaces cs with
  | ']' :: r => some (.array [], r)
  | _ => (readItems item limit cs).map fun result => (.array result.1, result.2)

/-- An object after its opening brace. -/
def readObject (item : ValueReader) (limit : Nat) (cs : List Char) : Option (Json × List Char) :=
  match skipSpaces cs with
  | '}' :: r => some (.object [], r)
  | _ => (readMembers item limit cs).map fun result => (.object result.1, result.2)

/-- A value that holds no other values. -/
def readScalar : List Char → Option (Json × List Char)
  | 'n' :: 'u' :: 'l' :: 'l' :: r => some (.null, r)
  | 't' :: 'r' :: 'u' :: 'e' :: r => some (.bool true, r)
  | 'f' :: 'a' :: 'l' :: 's' :: 'e' :: r => some (.bool false, r)
  | '"' :: r => (readString r).map fun result => (.string (String.ofList result.1), result.2)
  | cs => readNumber cs

/-- A value after white space, in which arrays and objects nest at most `depth` deep and hold at
most `limit` values each. -/
def readValue (limit : Nat) : (depth : Nat) → ValueReader
  | 0, cs => readScalar (skipSpaces cs)
  | depth + 1, cs =>
    match skipSpaces cs with
    | '[' :: r => readArray (readValue limit depth) limit r
    | '{' :: r => readObject (readValue limit depth) limit r
    | r => readScalar r

/-- The value that a text is. No array in it has more items than the text has characters. -/
def parse? (s : String) : Option Json := do
  let cs := s.toList
  let (v, r) ← readValue cs.length nestingLimit cs
  if skipSpaces r = [] then some v else none

end RealModeTrace.Json

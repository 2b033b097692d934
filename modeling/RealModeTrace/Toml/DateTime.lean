import RealModeTrace.Text.Numeral

/-!
# Dates and times in TOML

A date, a time of day, or both, with an offset from universal time or without. Each has one
canonical spelling: `T` stands between date and time, a fraction of a second has at most nine places
and no zero at its end, and an offset is `Z` or has a sign, which is a minus only before an offset
that is not zero.

* `readDateTime`: the date that stands bare at the head of a text, and what follows it;
* `dateOfText?`: the date that a whole text spells, with nothing left over.
-/

namespace RealModeTrace.Toml

/-! ### Fields -/

/-- A number of exactly `count` digits between two bounds. -/
def readField (count low high : Nat) (cs : List Char) : Option (Nat × List Char) :=
  let digits := cs.take count
  let n := Text.natOfDigits 10 digits
  if digits.length = count && digits.all Text.isDecimal && low ≤ n && n ≤ high then
    some (n, cs.drop count)
  else none

/-- What follows a given character at the head. -/
def expect (c : Char) : List Char → Option (List Char)
  | d :: r => if d = c then some r else none
  | [] => none

/-! ### Parts -/

/-- The number of days of a month. -/
def daysIn (year month : Nat) : Nat :=
  if month = 2 then
    if year % 4 = 0 && (year % 100 != 0 || year % 400 = 0) then 29 else 28
  else if month = 4 || month = 6 || month = 9 || month = 11 then 30
  else 31

/-- A date in its canonical spelling, and what follows it. -/
def readDate (cs : List Char) : Option (String × List Char) := do
  let (year, r) ← readField 4 0 9999 cs
  let (month, r) ← readField 2 1 12 (← expect '-' r)
  let (day, r) ← readField 2 1 (daysIn year month) (← expect '-' r)
  return (Text.decimalPad 4 year ++ "-" ++ Text.decimalPad 2 month ++ "-" ++ Text.decimalPad 2 day,
    r)

/-- The fraction of a second, if there is one, in at most nine places and without zeros at its end;
and what follows it. -/
def readSecondFraction : List Char → String × List Char
  | '.' :: c :: r =>
    if Text.isDecimal c then
      let places := ((c :: r).takeWhile Text.isDecimal).take 9
      let kept := (places.reverse.dropWhile (· == '0')).reverse
      (if kept = [] then "" else String.ofList ('.' :: kept), r.dropWhile Text.isDecimal)
    else ("", '.' :: c :: r)
  | r => ("", r)

/-- A time of day in its canonical spelling, and what follows it. -/
def readTime (cs : List Char) : Option (String × List Char) := do
  let (hour, r) ← readField 2 0 23 cs
  let (minute, r) ← readField 2 0 59 (← expect ':' r)
  let (second, r) ← readField 2 0 60 (← expect ':' r)
  let (fraction, r) := readSecondFraction r
  return (Text.decimalPad 2 hour ++ ":" ++ Text.decimalPad 2 minute ++ ":" ++
    Text.decimalPad 2 second ++ fraction, r)

/-- An offset from universal time in its canonical spelling, and what follows it. -/
def readOffset : List Char → Option (String × List Char)
  | c :: r =>
    if c = 'Z' || c = 'z' then some ("Z", r)
    else if c = '+' || c = '-' then do
      let (hour, r) ← readField 2 0 23 r
      let (minute, r) ← readField 2 0 59 (← expect ':' r)
      let sign := if c = '-' && (hour, minute) != (0, 0) then "-" else "+"
      return (sign ++ Text.decimalPad 2 hour ++ ":" ++ Text.decimalPad 2 minute, r)
    else none
  | [] => none

/-- The time after a date, from the letter or blank between them on, with the offset that may follow
it; and what follows them. -/
def readTimeAfterDate : List Char → Option (String × List Char)
  | c :: r =>
    if c = 'T' || c = 't' || c = ' ' then do
      let (time, r) ← readTime r
      let (offset, r) := (readOffset r).getD ("", r)
      return ("T" ++ time ++ offset, r)
    else none
  | [] => none

/-! ### Whole dates -/

/-- A date, a time, or both with an offset or without, in the canonical spelling, and what follows
it. -/
def readDateTime (cs : List Char) : Option (String × List Char) :=
  match readDate cs with
  | some (date, r) =>
    let (time, r) := (readTimeAfterDate r).getD ("", r)
    some (date ++ time, r)
  | none => readTime cs

/-- The canonical spelling of the date, time, or both, that a text spells. -/
def dateOfText? (s : String) : Option String :=
  match readDateTime s.toList with
  | some (date, []) => some date
  | _ => none

end RealModeTrace.Toml

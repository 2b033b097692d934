/-!
# Numbers too large for a double

A decimal numeral is too large for a double when the nearest double to it would be infinite, which
begins half a unit above the largest finite double.

* `doubleBound`: that point;
* `exceedsDouble m e`: `m · 10^e` is too large;
* `productExceedsDouble m e`: the product of the doubles nearest to `m` and to `10^e` is too large.
-/

namespace RealModeTrace.Text

/-- The least number whose nearest double is infinite. -/
def doubleBound : Nat :=
  Nat.pow 2 1024 - Nat.pow 2 970

/-- The number `m · 10^e` is too large for a double. Powers that settle the question by their length
alone are not computed. -/
def exceedsDouble (m : Nat) (e : Int) : Bool :=
  if m = 0 then false
  else
    let places := (Nat.toDigits 10 m).length + e
    if places ≤ 308 then false
    else if 309 < places then true
    else match e with
      | .ofNat e => doubleBound ≤ m * Nat.pow 10 e
      | .negSucc e => doubleBound * Nat.pow 10 (e + 1) ≤ m

/-- The nearest number of at most fifty-three binary digits, times a power of two; a tie goes to the
even one. -/
def roundBinary (n : Nat) : Nat :=
  let drop := n.log2 + 1 - 53
  let unit := Nat.pow 2 drop
  let low := n % unit
  let high := n / unit
  if 2 * low < unit || (2 * low = unit && high % 2 = 0) then high * unit else (high + 1) * unit

/-- The product of the doubles nearest to `m` and `10^e` is too large for a double; a power that is
itself too large counts so unless `m` is zero. -/
def productExceedsDouble (m : Nat) (e : Int) : Bool :=
  match e with
  | .negSucc _ => false
  | .ofNat e =>
    if m = 0 then false
    else if 308 < e then true
    else doubleBound ≤ roundBinary m * roundBinary (Nat.pow 10 e)

end RealModeTrace.Text

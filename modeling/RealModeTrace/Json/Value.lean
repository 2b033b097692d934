/-!
# JSON values

Integers that fit sixty-four bits, signed or unsigned, are kept as numbers. Any other number is kept
as it is written. An object keeps its members in order, repeated names included.
-/

namespace RealModeTrace

/-- A JSON value. -/
inductive Json
  | null
  | bool (b : Bool)
  | integer (n : Int)
  /-- A number that is no such integer, in its own spelling. -/
  | real (spelling : String)
  | string (s : String)
  | array (items : List Json)
  | object (members : List (String × Json))

namespace Json

/-- A natural number. -/
def nat (n : Nat) : Json :=
  .integer n

/-- The number of a word. -/
def word (n : UInt16) : Json :=
  nat n.toNat

/-- A value, or `null` in its absence. -/
def ofOption {α : Type} (f : α → Json) : Option α → Json
  | some a => f a
  | none => .null

/-- The members of an object. -/
def members? : Json → Option (List (String × Json))
  | .object members => some members
  | _ => none

/-- The items of an array. -/
def items? : Json → Option (List Json)
  | .array items => some items
  | _ => none

/-- The text of a string. -/
def string? : Json → Option String
  | .string s => some s
  | _ => none

/-- A truth value. -/
def bool? : Json → Option Bool
  | .bool b => some b
  | _ => none

/-- An integer from `0` to `bound - 1`. -/
def below? (bound : Nat) : Json → Option Nat
  | .integer (.ofNat n) => if n < bound then some n else none
  | _ => none

/-- A byte. -/
def byte? (v : Json) : Option UInt8 :=
  (v.below? UInt8.size).map UInt8.ofNat

/-- A word of sixteen bits. -/
def word? (v : Json) : Option UInt16 :=
  (v.below? UInt16.size).map UInt16.ofNat

/-- A word of thirty-two bits. -/
def long? (v : Json) : Option UInt32 :=
  (v.below? UInt32.size).map UInt32.ofNat

/-- What `read` makes of a value, and nothing of `null`. -/
def optional? {α : Type} (read : Json → Option α) : Json → Option (Option α)
  | .null => some none
  | v => (read v).map some

end Json

end RealModeTrace

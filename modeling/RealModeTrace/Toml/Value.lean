/-!
# TOML values

A table holds each key once, in the order in which the keys were first given. A date or time is kept
in its canonical spelling. Floats are told apart from other values, and their value is not kept.
-/

namespace RealModeTrace.Toml

/-- A value of a TOML document. -/
inductive Value
  | string (s : String)
  | integer (n : Int)
  | float
  | boolean (b : Bool)
  | dateTime (spelling : String)
  | array (items : List Value)
  | table (entries : List (String × Value))

end RealModeTrace.Toml

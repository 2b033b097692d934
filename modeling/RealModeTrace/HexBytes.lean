import RealModeTrace.Text.Numeral

/-!
# Bytes in base sixteen

Bytes are shown as pairs of upper-case digits with one space between two pairs. The opcode column
of an instruction line is padded with spaces on the right.
-/

namespace RealModeTrace

/-- The pieces of the row of pairs: each pair, and a space before all but the first. -/
def hexPieces : List UInt8 → List String
  | [] => []
  | b :: bs => Text.hexByte b :: bs.flatMap fun b => [" ", Text.hexByte b]

/-- The row of pairs. -/
def hexBytes (bs : List UInt8) : String :=
  String.join (hexPieces bs)

/-- The row of pairs, with spaces after it up to `width` characters. -/
def hexColumn (width : Nat) (bs : List UInt8) : String :=
  hexBytes bs ++ String.ofList (List.replicate (width - (bs.length * 3 - 1)) ' ')

@[simp] theorem hexPieces_nil : hexPieces [] = [] := rfl

end RealModeTrace

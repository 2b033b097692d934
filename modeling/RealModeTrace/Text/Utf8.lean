/-!
# Bytes of text

Text is stored in files as UTF-8.

* `utf8`: the bytes of a text;
* `ofUtf8?`: the text of bytes, if they are well formed;
* `ofUtf8Lossy`: the text of any bytes, in which every longest run that could have begun a
  character but did not finish one, and every byte that can begin none, becomes U+FFFD.
-/

namespace RealModeTrace.Text

/-- The UTF-8 bytes of a text. -/
def utf8 (s : String) : ByteArray :=
  s.toByteArray

/-- The text whose UTF-8 bytes these are. -/
def ofUtf8? (bytes : ByteArray) : Option String :=
  String.fromUTF8? bytes

/-- What stands at the head of a byte sequence: a character or a fault, and its length less one. -/
inductive Head
  | char (c : Char) (more : Nat)
  | fault (more : Nat)
  deriving DecidableEq

/-- A byte that continues a character. -/
def isTail (b : UInt8) : Bool :=
  0x80 ≤ b && b ≤ 0xBF

/-- The range of the second byte after a first byte that takes more than one. -/
def secondRange (first : UInt8) : UInt8 × UInt8 :=
  if first = 0xE0 then (0xA0, 0xBF)
  else if first = 0xED then (0x80, 0x9F)
  else if first = 0xF0 then (0x90, 0xBF)
  else if first = 0xF4 then (0x80, 0x8F)
  else (0x80, 0xBF)

/-- The number of bytes that follow a first byte, if it can begin a character. -/
def tailCount (first : UInt8) : Option Nat :=
  if first < 0x80 then some 0
  else if 0xC2 ≤ first && first ≤ 0xDF then some 1
  else if 0xE0 ≤ first && first ≤ 0xEF then some 2
  else if 0xF0 ≤ first && first ≤ 0xF4 then some 3
  else none

/-- The six bits that a continuation byte adds. -/
def pushTail (n : Nat) (b : UInt8) : Nat :=
  n * 64 + (b.toNat - 0x80)

/-- The character or fault at the head of `first :: rest`. -/
def readHead (first : UInt8) (rest : List UInt8) : Head :=
  match tailCount first, rest with
  | none, _ => .fault 0
  | some 0, _ => .char (Char.ofNat first.toNat) 0
  | some (n + 1), second :: rest =>
    let range := secondRange first
    if range.1 ≤ second && second ≤ range.2 then
      let tails := (rest.take n).takeWhile isTail
      if tails.length = n then
        let lead := if n = 0 then first.toNat - 0xC0
          else if n = 1 then first.toNat - 0xE0 else first.toNat - 0xF0
        .char (Char.ofNat ((second :: tails).foldl pushTail lead)) (n + 1)
      else .fault (tails.length + 1)
    else .fault 0
  | some _, [] => .fault 0

/-- The characters of a byte sequence, with U+FFFD for each fault. -/
def lossyChars : List UInt8 → List Char
  | [] => []
  | first :: rest =>
    match readHead first rest with
    | .char c more => c :: lossyChars (rest.drop more)
    | .fault more => '\uFFFD' :: lossyChars (rest.drop more)
termination_by bytes => bytes.length
decreasing_by all_goals simp only [List.length_drop, List.length_cons]; omega

/-- The text of any bytes, with U+FFFD for what is not UTF-8. -/
def ofUtf8Lossy (bytes : ByteArray) : String :=
  match ofUtf8? bytes with
  | some s => s
  | none => String.ofList (lossyChars bytes.toList)

end RealModeTrace.Text

import RealModeTrace.Exclusion
import RealModeTrace.Proofs.Text.Lines
import RealModeTrace.Proofs.Text.Plain

/-!
# The language of exclusion lists

A list is looked at in two ways, both byte by byte: at an interrupt, whether some token is the two
digits of its number, and when options are checked, whether every token is empty or two digits. Both
see the same tokens: two characters that are digits in base sixteen, whatever characters of more
bytes are about.

* `TwoDigits`, `Names`: a token is two digits, and those of a number;
* `tokenBytes_of_digits`, `digits_of_tokenBytes`: digits among the characters and among the bytes;
* `names_iff`, `wellFormed_iff`: the two ways to look at a token;
* `excludes_iff`, `firstMalformed?_eq`: the two ways to look at a list;
* `ListLaw`: what a list excludes; `listLaw`: every list does.
-/

namespace RealModeTrace.Exclusion

open Text

/-! ### Tokens -/

/-- The token is two digits in base sixteen, each in either case. -/
structure TwoDigits (token : String) : Prop where
  length_eq : token.toList.length = 2
  digits : ∀ c ∈ token.toList, isDigitOf 16 c = true

/-- The token is two digits and the number is their value. -/
structure Names (token : String) (number : UInt8) : Prop extends TwoDigits token where
  value_eq : natOfDigits 16 token.toList = number.toNat

/-- The token is one that a list may hold: nothing, or two digits. -/
def Admissible (token : String) : Prop :=
  token = "" ∨ TwoDigits token

instance : DecidablePred TwoDigits := fun token =>
  decidable_of_iff (token.toList.length = 2 ∧ token.toList.all (isDigitOf 16) = true)
    ⟨fun h => ⟨h.1, List.all_eq_true.1 h.2⟩, fun h => ⟨h.length_eq, List.all_eq_true.2 h.digits⟩⟩

instance : DecidablePred Admissible := fun _ => inferInstanceAs (Decidable (_ ∨ _))

/-! ### Bytes of digits -/

/-- The byte of a character that has one byte only. -/
def code (c : Char) : UInt8 :=
  UInt8.ofNat c.toNat

theorem isDigitByte_ofNat : ∀ k, k < 256 →
    isDigitByte (UInt8.ofNat k) = isDigitOf 16 (Char.ofNat k) := by
  decide +kernel

theorem upperByte_ofNat : ∀ k, k < 256 → ∀ n, n < 16 →
    (upperByte (UInt8.ofNat k) == digitByte (UInt8.ofNat n)) =
      (digitValue (Char.ofNat k) == some n) := by
  decide +kernel

/-- A byte is that of a digit exactly if its character is a digit. -/
theorem isDigitByte_code {c : Char} (hc : c.toNat < 256) :
    isDigitByte (code c) = isDigitOf 16 c := by
  rw [code, isDigitByte_ofNat _ hc, Char.ofNat_toNat]

/-- A byte is, but for case, that of a digit exactly if its character has the value of the digit. -/
theorem upperByte_code {c : Char} (hc : c.toNat < 256) {n : UInt8} (hn : n.toNat < 16) :
    (upperByte (code c) == digitByte n) = true ↔ digitValue c = some n.toNat := by
  have h := upperByte_ofNat _ hc _ hn
  rw [UInt8.ofNat_toNat, Char.ofNat_toNat] at h
  rw [code, h, beq_iff_eq]

theorem tokenBytes_eq (token : String) :
    tokenBytes token = token.toList.flatMap String.utf8EncodeChar := by
  rw [tokenBytes, utf8, ← String.utf8Encode_toList, List.utf8Encode, List.data_toByteArray]

theorem isPrintable_of_isDigitOf {c : Char} (h : isDigitOf 16 c = true) : isPrintable c = true := by
  have hbounds {low high : Char} (hlow : 32 ≤ low.toNat) (hhigh : high.toNat ≤ 126)
      (hc : low ≤ c ∧ c ≤ high) : 32 ≤ c.toNat ∧ c.toNat ≤ 126 :=
    ⟨hlow.trans (UInt32.le_iff_toNat_le.1 hc.1), (UInt32.le_iff_toNat_le.1 hc.2).trans hhigh⟩
  rw [isPrintable_iff]
  unfold isDigitOf digitValue at h
  split_ifs at h with hdecimal hlower hupper
  · exact hbounds (by decide) (by decide) hdecimal
  · exact hbounds (by decide) (by decide) hlower
  · exact hbounds (by decide) (by decide) hupper
  · cases h

theorem isPrintable_of_isDigitByte {b : UInt8} (h : isDigitByte b = true) :
    (32 ≤ b && b ≤ 126) = true := by
  simp only [isDigitByte, Bool.or_eq_true, Bool.and_eq_true, decide_eq_true_iff,
    UInt8.le_iff_toNat_le, UInt8.reduceToNat] at h ⊢
  omega

/-- A printable character is one byte. -/
theorem utf8EncodeChar_of_isPrintable {c : Char} (h : isPrintable c = true) :
    String.utf8EncodeChar c = [code c] := by
  have hc : c.val.toNat ≤ 127 := Nat.le_succ_of_le (isPrintable_iff.1 h).2
  rw [String.utf8EncodeChar]
  exact if_pos hc

theorem toNat_lt_of_isPrintable {c : Char} (h : isPrintable c = true) : c.toNat < 256 :=
  Nat.lt_of_le_of_lt (isPrintable_iff.1 h).2 (by decide)

/-- Digits are one byte each. -/
theorem tokenBytes_of_digits {token : String} (h : ∀ c ∈ token.toList, isDigitOf 16 c = true) :
    tokenBytes token = token.toList.map code := by
  have hbytes : ∀ c ∈ token.toList, String.utf8EncodeChar c = [code c] := fun c hc =>
    utf8EncodeChar_of_isPrintable (isPrintable_of_isDigitOf (h c hc))
  rw [tokenBytes_eq, List.flatMap_congr hbytes, List.map_eq_flatMap]

/-- Bytes of digits are those of digits, and of no characters of more bytes. -/
theorem digits_of_tokenBytes {token : String} (h : ∀ b ∈ tokenBytes token, isDigitByte b = true) :
    ∀ c ∈ token.toList, isDigitOf 16 c = true := by
  intro c hc
  have hbytes : ∀ b ∈ String.utf8EncodeChar c, isDigitByte b = true := by
    intro b hb
    apply h
    rw [tokenBytes_eq]
    exact List.mem_flatMap.2 ⟨c, hc, hb⟩
  have hprintable : isPrintable c = true :=
    isPrintable_of_utf8EncodeChar fun b hb => isPrintable_of_isDigitByte (hbytes b hb)
  have hcode : code c ∈ String.utf8EncodeChar c := by
    rw [utf8EncodeChar_of_isPrintable hprintable]
    exact List.mem_singleton_self _
  rw [← isDigitByte_code (toNat_lt_of_isPrintable hprintable)]
  exact hbytes _ hcode

/-! ### The two ways to look at a token -/

/-- A token of two bytes of digits is two digits. -/
theorem twoDigits_iff {token : String} :
    ((tokenBytes token).length == 2 && (tokenBytes token).all isDigitByte) = true ↔
      TwoDigits token := by
  rw [Bool.and_eq_true, beq_iff_eq, List.all_eq_true]
  constructor
  · rintro ⟨hlength, hbytes⟩
    have hdigits := digits_of_tokenBytes hbytes
    rw [tokenBytes_of_digits hdigits, List.length_map] at hlength
    exact ⟨hlength, hdigits⟩
  · rintro ⟨hlength, hdigits⟩
    rw [tokenBytes_of_digits hdigits]
    refine ⟨by rw [List.length_map, hlength], List.forall_mem_map.2 fun c hc => ?_⟩
    have hprintable := isPrintable_of_isDigitOf (hdigits c hc)
    rw [isDigitByte_code (toNat_lt_of_isPrintable hprintable)]
    exact hdigits c hc

theorem wellFormed_iff {token : String} : wellFormed token = true ↔ Admissible token := by
  rw [wellFormed, Bool.or_eq_true, beq_iff_eq, twoDigits_iff]
  rfl

theorem toNat_high (number : UInt8) : (number >>> 4).toNat = number.toNat / 16 := by
  simp [UInt8.toNat_shiftRight, Nat.shiftRight_eq_div_pow]

theorem toNat_low (number : UInt8) : (number &&& 0x0F).toNat = number.toNat % 16 := by
  rw [UInt8.toNat_and]
  exact Nat.and_two_pow_sub_one_eq_mod number.toNat 4

theorem high_lt (number : UInt8) : (number >>> 4).toNat < 16 := by
  have hnumber := number.toNat_lt
  rw [toNat_high]
  omega

theorem low_lt (number : UInt8) : (number &&& 0x0F).toNat < 16 := by
  rw [toNat_low]
  omega

/-- A byte that is, but for case, that of a digit is the byte of a digit. -/
theorem isDigitByte_of_upperByte {b n : UInt8} (hn : n.toNat < 16)
    (h : (upperByte b == digitByte n) = true) : isDigitByte b = true := by
  have hbyte := upperByte_ofNat b.toNat b.toNat_lt n.toNat hn
  rw [UInt8.ofNat_toNat, UInt8.ofNat_toNat, h] at hbyte
  have hvalue : digitValue (Char.ofNat b.toNat) = some n.toNat := beq_iff_eq.1 hbyte.symm
  rw [← b.ofNat_toNat, isDigitByte_ofNat b.toNat b.toNat_lt, isDigitOf, hvalue]
  exact decide_eq_true hn

theorem isDigitOf_iff {base : Nat} {c : Char} :
    isDigitOf base c = true ↔ ∃ x, digitValue c = some x ∧ x < base := by
  simp [isDigitOf, Option.any_eq_true]

/-- The two digits of a token, and their values. -/
theorem TwoDigits.exists_digits {token : String} (h : TwoDigits token) :
    ∃ a b x y, token.toList = [a, b] ∧ (digitValue a = some x ∧ x < 16) ∧
      digitValue b = some y ∧ y < 16 := by
  obtain ⟨a, b, hchars⟩ := List.length_eq_two.1 h.length_eq
  have hdigits := h.digits
  rw [hchars] at hdigits
  obtain ⟨x, hx⟩ := isDigitOf_iff.1 (hdigits a (by simp))
  obtain ⟨y, hy⟩ := isDigitOf_iff.1 (hdigits b (by simp))
  exact ⟨a, b, x, y, hchars, hx, hy⟩

/-- Only two digits name a number. -/
theorem twoDigits_of_names {token : String} {number : UInt8} (h : names number token = true) :
    TwoDigits token := by
  rw [names] at h
  split at h
  · next high low hbytes =>
    obtain ⟨hhigh, hlow⟩ := (Bool.and_eq_true _ _).mp h
    rw [← twoDigits_iff, hbytes]
    simp [isDigitByte_of_upperByte (high_lt number) hhigh,
      isDigitByte_of_upperByte (low_lt number) hlow]
  · cases h

/-- Two digits name the number that is their value. -/
theorem TwoDigits.names_iff {token : String} (h : TwoDigits token) {number : UInt8} :
    names number token = true ↔ natOfDigits 16 token.toList = number.toNat := by
  obtain ⟨a, b, x, y, hchars, ⟨ha, hx⟩, hb, hy⟩ := h.exists_digits
  have hdigits := h.digits
  have hbytes := tokenBytes_of_digits hdigits
  rw [hchars] at hbytes hdigits
  have hcode : ∀ c ∈ [a, b], c.toNat < 256 := fun c hc =>
    toNat_lt_of_isPrintable (isPrintable_of_isDigitOf (hdigits c hc))
  have hnames : names number token = true ↔
      digitValue a = some (number >>> 4).toNat ∧ digitValue b = some (number &&& 0x0F).toNat := by
    rw [names, hbytes, List.map_cons, List.map_cons, List.map_nil]
    simp only [Bool.and_eq_true, upperByte_code (hcode a (by simp)) (high_lt number),
      upperByte_code (hcode b (by simp)) (low_lt number)]
  have hvalue : natOfDigits 16 token.toList = x * 16 + y := by
    rw [hchars]
    simp [natOfDigits, ha, hb]
  rw [hnames, hvalue, ha, hb, Option.some_inj, Option.some_inj, toNat_high, toNat_low]
  have hnumber := number.toNat_lt
  omega

/-- **A token names a number exactly if it is two digits of that value.** -/
theorem names_iff {token : String} {number : UInt8} :
    names number token = true ↔ Names token number := by
  constructor
  · intro h
    have htwo := twoDigits_of_names h
    exact ⟨htwo, htwo.names_iff.1 h⟩
  · rintro ⟨htwo, hvalue⟩
    exact htwo.names_iff.2 hvalue

/-! ### Lists -/

/-- An empty list has one token, which names nothing. -/
theorem excludes_eq (list : String) (number : UInt8) :
    excludes list number = (tokens list).any (names number) := by
  by_cases hempty : list = ""
  · subst hempty
    rfl
  · rw [excludes, bne_iff_ne.2 hempty, Bool.true_and]

theorem excludes_iff {list : String} {number : UInt8} :
    excludes list number = true ↔ ∃ token ∈ tokens list, Names token number := by
  rw [excludes_eq, List.any_eq_true]
  exact exists_congr fun token => and_congr_right fun _ => names_iff

theorem firstMalformed?_eq (list : String) :
    firstMalformed? list = (tokens list).find? fun token => ¬ Admissible token := by
  refine congrArg (List.find? · (tokens list)) (funext fun token => ?_)
  rw [Bool.eq_iff_iff, Bool.not_eq_true', ← Bool.not_eq_true, wellFormed_iff, decide_eq_true_iff]

/-- A list of which each token is empty or two digits excludes exactly the values of the digits. -/
theorem excludes_iff_of_admissible {list : String}
    (h : ∀ token ∈ tokens list, Admissible token) {number : UInt8} :
    excludes list number = true ↔
      ∃ token ∈ tokens list, token ≠ "" ∧ natOfDigits 16 token.toList = number.toNat := by
  rw [excludes_iff]
  constructor
  · rintro ⟨token, hmem, hnames⟩
    refine ⟨token, hmem, fun hempty => ?_, hnames.value_eq⟩
    have hlength := hnames.length_eq
    rw [hempty] at hlength
    cases hlength
  · rintro ⟨token, hmem, hne, hvalue⟩
    exact ⟨token, hmem, (h token hmem).resolve_left hne, hvalue⟩

/-- What a list excludes. -/
structure ListLaw (list : String) : Prop where
  /-- The tokens are what stands between the commas, trimmed. -/
  pieces_iff : ∀ pieces, PiecesOf ',' list pieces ↔ splitAt ',' list = pieces
  tokens_eq : tokens list = (splitAt ',' list).map trim
  /-- An interrupt is excluded exactly if a token is two digits of the value of its number. -/
  excluded_iff : ∀ number, excludes list number = true ↔ ∃ token ∈ tokens list, Names token number

theorem listLaw (list : String) : ListLaw list where
  pieces_iff _ := piecesOf_iff
  tokens_eq := rfl
  excluded_iff _ := excludes_iff

end RealModeTrace.Exclusion

import ContentModel.Proofs.Text.Utf8
import ContentModel.Text.Blank
import ContentModel.Text.Code
import ContentModel.Text.Percent

/-
# Reading percent-encoded texts

A percent sign and two hexadecimal digits stand for a byte, and any other character for its own bytes; what
the bytes spell in UTF-8 is the text that was encoded.  An encoded text holds nothing but letters, digits and a
few marks of ASCII, none of which ends a segment of an address.

Main statements: `percentDecode?_percentEncode` (reading back) and `isSegmentChar_of_mem_percentEncode` (which
characters stand in an encoded text).
-/

namespace ContentModel.Text

/-! ## Decoding -/

/-- The bytes that a percent-encoded text stands for, if every percent sign is followed by two digits. -/
def decodeBytes? : List Char → Option Bytes
  | [] => some []
  | '%' :: high :: low :: cs =>
    match hexValue? high, hexValue? low with
    | some m, some n => (decodeBytes? cs).map (UInt8.ofNat (16 * m + n) :: ·)
    | _, _ => none
  | c :: cs => if c = '%' then none else (decodeBytes? cs).map (String.utf8EncodeChar c ++ ·)

/-- The text that a percent-encoded text stands for, if its bytes are those of a text. -/
def percentDecode? (s : String) : Option String :=
  (decodeBytes? s.toList).bind ofUtf8?

/-- An uppercase digit shows its value. -/
theorem hexValue?_upperHexDigit {n : Nat} (h : n < 16) : hexValue? (upperHexDigit n) = some n := by
  have hall : ∀ n < 16, hexValue? (upperHexDigit n) = some n := by decide
  exact hall n h

/-- An escaped byte reads back. -/
theorem decodeBytes?_escapeByte (b : UInt8) (cs : List Char) :
    decodeBytes? (escapeByte b ++ cs) = (decodeBytes? cs).map (b :: ·) := by
  have hb : b.toNat < 256 := b.toNat_lt
  have hhigh := hexValue?_upperHexDigit (show b.toNat / 16 < 16 by omega)
  have hlow := hexValue?_upperHexDigit (show b.toNat % 16 < 16 by omega)
  have hbyte : UInt8.ofNat (16 * (b.toNat / 16) + b.toNat % 16) = b := by
    rw [Nat.div_add_mod, UInt8.ofNat_toNat]
  show decodeBytes? ('%' :: upperHexDigit (b.toNat / 16) :: upperHexDigit (b.toNat % 16) :: cs) = _
  rw [decodeBytes?, hhigh, hlow]
  dsimp only
  rw [hbyte]

/-- A kept byte is that of a character other than the percent sign. -/
theorem utf8EncodeChar_of_isUnreserved {b : UInt8} (h : isUnreserved b = true) :
    Char.ofNat b.toNat ≠ '%' ∧ String.utf8EncodeChar (Char.ofNat b.toNat) = [b] := by
  -- Bytes are numbers below 256, and one computation settles them all.
  have hall : ∀ n < 256, isUnreserved (UInt8.ofNat n) = true →
      Char.ofNat n ≠ '%' ∧ String.utf8EncodeChar (Char.ofNat n) = [UInt8.ofNat n] := by
    decide +kernel
  have hb := hall b.toNat b.toNat_lt
  rw [UInt8.ofNat_toNat] at hb
  exact hb h

/-- A byte reads back, whether it was kept or escaped. -/
theorem decodeBytes?_encodeByte (b : UInt8) (cs : List Char) :
    decodeBytes? (encodeByte isUnreserved b ++ cs) = (decodeBytes? cs).map (b :: ·) := by
  rw [encodeByte]
  split
  · rename_i hkeep
    obtain ⟨hpercent, hbytes⟩ := utf8EncodeChar_of_isUnreserved hkeep
    rw [List.singleton_append, decodeBytes?.eq_3, if_neg hpercent, hbytes]
    · rfl
    · rintro high low rest h -
      exact hpercent h
  · exact decodeBytes?_escapeByte b cs

/-- The bytes of a text read back. -/
theorem decodeBytes?_flatMap (bytes : Bytes) :
    decodeBytes? (bytes.flatMap (encodeByte isUnreserved)) = some bytes := by
  induction bytes with
  | nil => rfl
  | cons b bytes ih => rw [List.flatMap_cons, decodeBytes?_encodeByte, ih, Option.map_some]

/-- **Reading back.**  What was percent-encoded reads back. -/
theorem percentDecode?_percentEncode (s : String) : percentDecode? (percentEncode s) = some s := by
  rw [percentDecode?, percentEncode, String.toList_ofList, decodeBytes?_flatMap, Option.bind_some,
    ofUtf8?_utf8]

/-- A text that looks encoded is encoded like any other. -/
example : percentEncode "50%20é" = "50%2520%C3%A9" := by decide +kernel

/-! ## Characters of encoded texts -/

/-- Whether a character can stand in an encoded text. -/
def isSegmentChar (c : Char) : Bool :=
  c.isAlphanum || c == '-' || c == '.' || c == '_' || c == '~' || c == '%'

/-- **Characters.**  Nothing else stands in an encoded text. -/
theorem isSegmentChar_of_mem_percentEncode {s : String} {c : Char}
    (h : c ∈ (percentEncode s).toList) : isSegmentChar c = true := by
  rw [percentEncode, String.toList_ofList, List.mem_flatMap] at h
  obtain ⟨b, -, hc⟩ := h
  rw [encodeByte] at hc
  split at hc
  · rename_i hkeep
    rw [List.mem_singleton.mp hc, isSegmentChar, Bool.or_eq_true]
    exact Or.inl hkeep
  · have hdigit : ∀ n < 16, isSegmentChar (upperHexDigit n) = true := by decide
    have hb : b.toNat < 256 := b.toNat_lt
    rw [escapeByte, List.mem_cons, List.mem_cons, List.mem_singleton] at hc
    rcases hc with rfl | rfl | rfl
    · rfl
    · exact hdigit _ (by omega)
    · exact hdigit _ (by omega)

/-- Letters and digits are visible characters of ASCII. -/
theorem toNat_of_isAlphanum {c : Char} (h : c.isAlphanum = true) : 0x2F < c.toNat ∧ c.toNat < 0x7B := by
  rcases Bool.or_eq_true_iff.mp h with halpha | hdigit
  · rcases Bool.or_eq_true_iff.mp halpha with hupper | hlower
    · have hbounds : 0x41 ≤ c.toNat ∧ c.toNat ≤ 0x5A := of_decide_eq_true hupper
      omega
    · obtain ⟨hlow, hhigh⟩ := Bool.and_eq_true_iff.mp hlower
      have hlow : 0x61 ≤ c.toNat := of_decide_eq_true hlow
      have hhigh : c.toNat ≤ 0x7A := of_decide_eq_true hhigh
      omega
  · obtain ⟨hlow, hhigh⟩ := Bool.and_eq_true_iff.mp hdigit
    have hlow : 0x30 ≤ c.toNat := of_decide_eq_true hlow
    have hhigh : c.toNat ≤ 0x39 := of_decide_eq_true hhigh
    omega

/-- Every character of an encoded text is a visible one of ASCII. -/
theorem toNat_of_isSegmentChar {c : Char} (h : isSegmentChar c = true) :
    0x20 < c.toNat ∧ c.toNat < 0x7F := by
  simp only [isSegmentChar, Bool.or_eq_true, beq_iff_eq] at h
  rcases h with ((((h | rfl) | rfl) | rfl) | rfl) | rfl
  · have hbounds := toNat_of_isAlphanum h
    omega
  all_goals decide

/-- No such character ends a segment, and none is white space. -/
theorem ne_of_isSegmentChar {c : Char} (h : isSegmentChar c = true) :
    c ≠ '/' ∧ c ≠ '?' ∧ c ≠ '#' ∧ isBlank c = false := by
  obtain ⟨hlow, hhigh⟩ := toNat_of_isSegmentChar h
  refine ⟨?_, ?_, ?_, ?_⟩
  · rintro rfl
    cases h
  · rintro rfl
    cases h
  · rintro rfl
    cases h
  · simp only [isBlank, Bool.or_eq_false_iff, Bool.and_eq_false_imp, decide_eq_true_eq,
      decide_eq_false_iff_not, beq_eq_false_iff_ne]
    omega

end ContentModel.Text

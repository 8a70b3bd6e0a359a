import ContentModel.Proofs.Json.Numbers
import ContentModel.Text.Calendar

/-
# Numbers with a fixed number of digits

A number is written with so many ASCII digits, zeros first.  As many digits stand for exactly one such number.

Main statements: `paddedDigits_ofDigitChars` and `ofDigitChars_paddedDigits` (digits and their number) and
`twoDigitsUpTo_eq_true_iff` (a number of two digits with a limit).
-/

namespace ContentModel.Text

open ContentModel.Json (AreDigits)

/-- A number as so many digits. -/
def paddedDigits : Nat → Nat → List Char
  | 0, _ => []
  | width + 1, n => paddedDigits width (n / 10) ++ [Nat.digitChar (n % 10)]

theorem length_paddedDigits (width n : Nat) : (paddedDigits width n).length = width := by
  induction width generalizing n with
  | zero => rfl
  | succ width ih => rw [paddedDigits, List.length_append, ih, List.length_singleton]

theorem areDigits_paddedDigits (width n : Nat) : AreDigits (paddedDigits width n) := by
  induction width generalizing n with
  | zero => exact fun c hc => nomatch hc
  | succ width ih =>
    refine (ih (n / 10)).append fun c hc => ?_
    rw [List.mem_singleton.mp hc, Nat.isDigit_digitChar]
    exact decide_eq_true (Nat.mod_lt n (by decide))

/-- A number that has digits starts with one. -/
theorem exists_cons_paddedDigits {width : Nat} (h : 0 < width) (n : Nat) :
    ∃ d ds, paddedDigits width n = d :: ds ∧ d.isDigit = true := by
  have hlength := length_paddedDigits width n
  have hdigits := areDigits_paddedDigits width n
  cases hds : paddedDigits width n with
  | nil =>
    rw [hds, List.length_nil] at hlength
    omega
  | cons d ds =>
    rw [hds] at hdigits
    exact ⟨d, ds, rfl, hdigits d List.mem_cons_self⟩

/-- The value of a digit. -/
theorem digit_bounds {c : Char} (h : c.isDigit = true) :
    c.toNat - '0'.toNat < 10 ∧ Nat.digitChar (c.toNat - '0'.toNat) = c := by
  obtain ⟨hlow, hhigh⟩ := Char.isDigit_iff_toNat.mp h
  have hlt : c.toNat - '0'.toNat < 10 := by
    have hnine : '9'.toNat = '0'.toNat + 9 := rfl
    omega
  refine ⟨hlt, Char.toNat_inj.mp ?_⟩
  rw [Nat.toNat_digitChar_of_lt_ten hlt]
  have hzero : '0'.toNat = 48 := rfl
  omega

/-- One more digit. -/
theorem ofDigitChars_concat (ds : List Char) (d : Char) :
    Nat.ofDigitChars 10 (ds ++ [d]) 0 = 10 * Nat.ofDigitChars 10 ds 0 + (d.toNat - '0'.toNat) := by
  rw [Nat.ofDigitChars_append, Nat.ofDigitChars_cons, Nat.ofDigitChars_nil]

/-- Digits stand for a number with so many digits. -/
theorem ofDigitChars_lt {ds : List Char} (h : AreDigits ds) :
    Nat.ofDigitChars 10 ds 0 < 10 ^ ds.length := by
  induction ds using List.reverseRecOn with
  | nil => exact Nat.one_pos
  | append_singleton ds d ih =>
    have hds := ih fun c hc => h c (List.mem_append_left _ hc)
    have hd := (digit_bounds (h d (by simp))).1
    rw [ofDigitChars_concat, List.length_append, List.length_singleton, Nat.pow_succ]
    omega

/-- **From digits.**  Digits are those of the number that they stand for. -/
theorem paddedDigits_ofDigitChars {ds : List Char} (h : AreDigits ds) :
    paddedDigits ds.length (Nat.ofDigitChars 10 ds 0) = ds := by
  induction ds using List.reverseRecOn with
  | nil => rfl
  | append_singleton ds d ih =>
    obtain ⟨hlt, hd⟩ := digit_bounds (h d (by simp))
    have hdiv : (10 * Nat.ofDigitChars 10 ds 0 + (d.toNat - '0'.toNat)) / 10 = Nat.ofDigitChars 10 ds 0 := by
      omega
    have hmod : (10 * Nat.ofDigitChars 10 ds 0 + (d.toNat - '0'.toNat)) % 10 = d.toNat - '0'.toNat := by
      omega
    rw [ofDigitChars_concat, List.length_append, List.length_singleton, paddedDigits, hdiv, hmod, hd,
      ih fun c hc => h c (List.mem_append_left _ hc)]

/-- **To digits.**  The digits of a number that is not too large stand for it. -/
theorem ofDigitChars_paddedDigits {width n : Nat} (h : n < 10 ^ width) :
    Nat.ofDigitChars 10 (paddedDigits width n) 0 = n := by
  induction width generalizing n with
  | zero => exact (Nat.lt_one_iff.mp h).symm
  | succ width ih =>
    have hdiv : n / 10 < 10 ^ width := by
      rw [Nat.pow_succ] at h
      omega
    have hdigit : (Nat.digitChar (n % 10)).toNat - '0'.toNat = n % 10 := by
      rw [Nat.toNat_digitChar_of_lt_ten (Nat.mod_lt n (by decide))]
      exact Nat.add_sub_cancel_left 48 (n % 10)
    rw [paddedDigits, ofDigitChars_concat, ih hdiv, hdigit]
    omega

/-- Two characters are a number up to a limit exactly if they are its two digits. -/
theorem twoDigitsUpTo_eq_true_iff {limit : Nat} (hlimit : limit ≤ 99) {a b : Char} :
    twoDigitsUpTo limit a b = true ↔ ∃ n ≤ limit, [a, b] = paddedDigits 2 n := by
  have hvalue : Nat.ofDigitChars 10 [a, b] 0 = 10 * (a.toNat - '0'.toNat) + (b.toNat - '0'.toNat) := by
    rw [Nat.ofDigitChars_cons, Nat.ofDigitChars_cons, Nat.ofDigitChars_nil, Nat.mul_zero, Nat.zero_add]
  have hdigits : twoDigitsUpTo limit a b = true ↔
      AreDigits [a, b] ∧ Nat.ofDigitChars 10 [a, b] 0 ≤ limit := by
    rw [hvalue]
    unfold twoDigitsUpTo twoDigits? digitValue? AreDigits
    cases ha : a.isDigit <;> cases hb : b.isDigit <;> simp [ha, hb]
  rw [hdigits]
  constructor
  · rintro ⟨hab, hle⟩
    exact ⟨_, hle, (paddedDigits_ofDigitChars hab).symm⟩
  · rintro ⟨n, hle, hab⟩
    rw [hab]
    exact ⟨areDigits_paddedDigits 2 n, (ofDigitChars_paddedDigits (by omega)).trans_le hle⟩

end ContentModel.Text

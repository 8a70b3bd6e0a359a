import Mathlib.Algebra.Order.Field.Power
import Mathlib.Algebra.Order.Ring.Rat
import Mathlib.Tactic.FieldSimp
import Mathlib.Tactic.Linarith
import Mathlib.Tactic.NormNum
import Mathlib.Tactic.Positivity
import Mathlib.Tactic.Ring
import ContentModel.Number.Binary64

/-
# Rounding to floating point numbers

A positive quotient determines the exponent at which its mantissa has 53 bits, and the mantissa is the
quotient at that exponent, rounded.  So every quotient between the middles to the neighbours of a number
rounds to the number, and so does every decimal numeral of such a value.

Main statements: `ofRatio_eq_some` (quotients), `ofDecimal_eq_some` (decimal numerals) and
`normal_ofDecimal` (the form of what is read).
-/

namespace ContentModel.Binary64

/-! ## The form of a number -/

/-- A number in its one form: a mantissa of 53 bits, or fewer bits at the least exponent. -/
structure Normal (x : Binary64) : Prop where
  mantissa_lt : x.mantissa < 2 ^ 53
  least_le : leastExponent ≤ x.exponent
  le_greatest : x.exponent ≤ greatestExponent
  full : x.exponent = leastExponent ∨ 2 ^ 52 ≤ x.mantissa

theorem normal_zero (negative : Bool) : (zero negative).Normal :=
  ⟨by simp [zero], le_rfl, by simp [zero, leastExponent, greatestExponent], Or.inl rfl⟩

/-! ## Quotients at an exponent -/

theorem unscale_div (num den : Nat) (e : ℤ) :
    ((unscale num den e).1 : ℚ) / (unscale num den e).2 = num / den / 2 ^ e := by
  rw [unscale]
  split
  · rename_i he
    obtain ⟨k, rfl⟩ := Int.eq_ofNat_of_zero_le he
    simp [Nat.pow_eq, zpow_natCast, div_div]
  · rename_i he
    obtain ⟨k, hk⟩ := Int.eq_ofNat_of_zero_le (show 0 ≤ -e by omega)
    obtain rfl : e = -(k : ℤ) := by omega
    simp [Nat.pow_eq, zpow_neg, zpow_natCast, mul_div_right_comm]

theorem unscale_pos (num : Nat) {den : Nat} (h : 0 < den) (e : ℤ) : 0 < (unscale num den e).2 := by
  rw [unscale]
  split
  · exact Nat.mul_pos h (Nat.two_pow_pos _)
  · exact h

/-! ## The exponent of a quotient -/

/-- The exponent at which a quotient has a mantissa of 53 bits, or the least one. -/
structure HasExponent (q : ℚ) (e : ℤ) : Prop where
  least_le : leastExponent ≤ e
  lt : q < 2 ^ 53 * 2 ^ e
  full : e = leastExponent ∨ 2 ^ 52 * 2 ^ e ≤ q

/-- A quotient has one exponent. -/
theorem HasExponent.le {q : ℚ} {e e' : ℤ} (h : HasExponent q e) (h' : HasExponent q e') : e ≤ e' := by
  by_contra hlt
  have hstep : e' + 1 ≤ e := by omega
  rcases h.full with hleast | hfull
  · have := h'.least_le
    omega
  · have hpow : (2 : ℚ) ^ (e' + 1) ≤ 2 ^ e := zpow_le_zpow_right₀ (by norm_num) hstep
    rw [zpow_add_one₀ (by norm_num)] at hpow
    have := h'.lt
    linarith

theorem HasExponent.unique {q : ℚ} {e e' : ℤ} (h : HasExponent q e) (h' : HasExponent q e') : e = e' :=
  le_antisymm (h.le h') (h'.le h)

/-- The powers of two around a positive natural number. -/
theorem pow_log2_bounds {n : Nat} (h : 0 < n) :
    (2 : ℚ) ^ (n.log2 : ℤ) ≤ n ∧ (n : ℚ) < 2 * 2 ^ (n.log2 : ℤ) := by
  have hlow : 2 ^ n.log2 ≤ n := Nat.log2_self_le h.ne'
  have hhigh : n < 2 ^ (n.log2 + 1) := Nat.lt_log2_self
  rw [zpow_natCast]
  refine ⟨by exact_mod_cast hlow, ?_⟩
  rw [pow_succ, mul_comm] at hhigh
  exact_mod_cast hhigh

/-- The exponent found from the lengths of numerator and denominator. -/
theorem hasExponent_exponentOfRatio {num den : Nat} (hnum : 0 < num) (hden : 0 < den) :
    HasExponent (num / den) (exponentOfRatio num den) := by
  have hdenq : (0 : ℚ) < den := by exact_mod_cast hden
  obtain ⟨hnlow, hnhigh⟩ := pow_log2_bounds hnum
  obtain ⟨hdlow, hdhigh⟩ := pow_log2_bounds hden
  rw [exponentOfRatio]
  generalize he : (num.log2 : ℤ) - den.log2 - 53 = e
  have hscale : (2 : ℚ) ^ (num.log2 : ℤ) = 2 ^ 53 * 2 ^ e * 2 ^ (den.log2 : ℤ) := by
    rw [← zpow_natCast 2 53, ← zpow_add₀ (by norm_num), ← zpow_add₀ (by norm_num)]
    congr 1
    omega
  have hpos : (0 : ℚ) < 2 ^ e := by positivity
  -- The quotient has 53 or 54 bits at the exponent guessed from the lengths.
  have hlow : 2 ^ 52 * 2 ^ e ≤ (num / den : ℚ) := by
    rw [le_div_iff₀ hdenq]
    nlinarith
  have hhigh : (num / den : ℚ) < 2 ^ 54 * 2 ^ e := by
    rw [div_lt_iff₀ hdenq]
    nlinarith
  have htest : Nat.pow 2 53 ≤ (unscale num den e).1 / (unscale num den e).2 ↔
      2 ^ 53 * 2 ^ e ≤ (num / den : ℚ) := by
    have hdpos := unscale_pos num hden e
    have hdposq : (0 : ℚ) < (unscale num den e).2 := by exact_mod_cast hdpos
    rw [Nat.le_div_iff_mul_le hdpos, ← le_div_iff₀ hpos, ← unscale_div, le_div_iff₀ hdposq, Nat.pow_eq]
    exact_mod_cast Iff.rfl
  have hexact : ∀ e' : ℤ, 2 ^ 52 * 2 ^ e' ≤ (num / den : ℚ) → (num / den : ℚ) < 2 ^ 53 * 2 ^ e' →
      HasExponent (num / den) (max leastExponent e') := by
    intro e' hle hlt
    rcases le_total leastExponent e' with hleast | hleast
    · rw [max_eq_right hleast]
      exact ⟨hleast, hlt, Or.inr hle⟩
    · rw [max_eq_left hleast]
      have hpow : (2 : ℚ) ^ e' ≤ 2 ^ leastExponent := zpow_le_zpow_right₀ (by norm_num) hleast
      exact ⟨le_rfl, by linarith, Or.inl rfl⟩
  dsimp only
  split
  · rename_i hfull
    refine hexact _ ?_ ?_
    · have := htest.mp hfull
      rw [zpow_add_one₀ (by norm_num)]
      linarith
    · rw [zpow_add_one₀ (by norm_num)]
      linarith
  · rename_i hfull
    exact hexact _ hlow (not_le.mp (fun h => hfull (htest.mpr h)))

/-! ## Rounding a quotient -/

/-- A quotient is rounded to the integer below or to the one above. -/
theorem roundQuotient_cases (num den : Nat) :
    roundQuotient num den = num / den ∨ roundQuotient num den = num / den + 1 := by
  rw [roundQuotient]
  split
  · exact Or.inl rfl
  · split
    · exact Or.inr rfl
    · split
      · exact Or.inl rfl
      · exact Or.inr rfl

/-- A quotient within one half of an integer is rounded to it, and so is one at a half if the integer is
even. -/
theorem roundQuotient_eq {num den m : Nat} (hden : 0 < den) (hlow : 2 * m * den ≤ 2 * num + den)
    (hhigh : 2 * num ≤ 2 * m * den + den)
    (hinside : m % 2 = 0 ∨ 2 * m * den < 2 * num + den ∧ 2 * num < 2 * m * den + den) :
    roundQuotient num den = m := by
  have hsplit := Nat.div_add_mod num den
  have hmod := Nat.mod_lt num hden
  rw [roundQuotient]
  generalize num / den = q at hsplit ⊢
  generalize num % den = r at hsplit hmod ⊢
  have hle : m ≤ q + 1 := by
    by_contra hlt
    nlinarith
  have hge : q ≤ m := by
    by_contra hlt
    nlinarith
  obtain rfl | rfl : m = q ∨ m = q + 1 := by omega
  · have hproduct : den * m = m * den := Nat.mul_comm _ _
    have hdouble : 2 * m * den = 2 * (m * den) := Nat.mul_assoc _ _ _
    split
    · rfl
    · split
      · omega
      · split
        · rfl
        · omega
  · have hproduct : 2 * (q + 1) * den = 2 * (den * q) + 2 * den := by ring
    split
    · omega
    · split
      · rfl
      · split
        · omega
        · rfl

/-! ## The interval of a number -/

/-- The middle between a positive number and the one below it.  Below a power of two the numbers stand
closer. -/
def lowEnd (x : Binary64) : ℚ :=
  (x.mantissa - if x.mantissa = 2 ^ 52 ∧ leastExponent < x.exponent then 1 / 4 else 1 / 2) *
    2 ^ x.exponent

/-- The middle between a positive number and the one above it. -/
def highEnd (x : Binary64) : ℚ :=
  (x.mantissa + 1 / 2) * 2 ^ x.exponent

/-- The quotients nearest to a positive number.  The middles belong to the even neighbour. -/
def RoundsTo (q : ℚ) (x : Binary64) : Prop :=
  if x.mantissa % 2 = 0 then x.lowEnd ≤ q ∧ q ≤ x.highEnd else x.lowEnd < q ∧ q < x.highEnd

theorem RoundsTo.low_le {q : ℚ} {x : Binary64} (h : RoundsTo q x) : x.lowEnd ≤ q := by
  rw [RoundsTo] at h
  split at h
  · exact h.1
  · exact h.1.le

theorem RoundsTo.le_high {q : ℚ} {x : Binary64} (h : RoundsTo q x) : q ≤ x.highEnd := by
  rw [RoundsTo] at h
  split at h
  · exact h.2
  · exact h.2.le

/-- The interval ends above half of the least number. -/
theorem lowEnd_pos {x : Binary64} (h : 0 < x.mantissa) : 1 / 2 * 2 ^ x.exponent ≤ x.lowEnd := by
  have hone : (1 : ℚ) ≤ x.mantissa := by exact_mod_cast h
  have hpos : (0 : ℚ) < 2 ^ x.exponent := by positivity
  rw [lowEnd]
  refine mul_le_mul_of_nonneg_right ?_ hpos.le
  split <;> linarith

section OfRatio

variable {num den : Nat} {x : Binary64}

/-- The mantissa of a quotient at an exponent, rounded. -/
theorem roundQuotient_unscale (hden : 0 < den) {m : Nat} {e : ℤ}
    (hlow : (m - 1 / 2) * 2 ^ e ≤ (num / den : ℚ)) (hhigh : (num / den : ℚ) ≤ (m + 1 / 2) * 2 ^ e)
    (hinside : m % 2 = 0 ∨
      (m - 1 / 2) * 2 ^ e < (num / den : ℚ) ∧ (num / den : ℚ) < (m + 1 / 2) * 2 ^ e) :
    roundQuotient (unscale num den e).1 (unscale num den e).2 = m := by
  have hpos : (0 : ℚ) < 2 ^ e := by positivity
  have hd := unscale_pos num hden e
  have hdq : (0 : ℚ) < (unscale num den e).2 := by exact_mod_cast hd
  rw [← le_div_iff₀ hpos, ← unscale_div, le_div_iff₀ hdq] at hlow
  rw [← div_le_iff₀ hpos, ← unscale_div, div_le_iff₀ hdq] at hhigh
  rw [← lt_div_iff₀ hpos, ← div_lt_iff₀ hpos, ← unscale_div, lt_div_iff₀ hdq, div_lt_iff₀ hdq]
    at hinside
  generalize (unscale num den e).1 = n at *
  generalize (unscale num den e).2 = d at *
  refine roundQuotient_eq hd ?_ ?_ (hinside.imp_right fun ⟨hlow, hhigh⟩ => ⟨?_, ?_⟩)
  · have : (2 * m * d : ℚ) ≤ 2 * n + d := by linarith
    exact_mod_cast this
  · have : (2 * n : ℚ) ≤ 2 * m * d + d := by linarith
    exact_mod_cast this
  · have : (2 * m * d : ℚ) < 2 * n + d := by linarith
    exact_mod_cast this
  · have : (2 * n : ℚ) < 2 * m * d + d := by linarith
    exact_mod_cast this

/-- A quotient whose rounded mantissa is known. -/
theorem ofRatio_of_hasExponent (negative : Bool) (hnum : 0 < num) (hden : 0 < den) {e : ℤ}
    (he : HasExponent (num / den) e) :
    ofRatio negative num den =
      let m := roundQuotient (unscale num den e).1 (unscale num den e).2
      let (m, e) := if m = 2 ^ 53 then (2 ^ 52, e + 1) else (m, e)
      if greatestExponent < e then none else some ⟨negative, m, e⟩ := by
  obtain rfl := he.unique (hasExponent_exponentOfRatio hnum hden)
  rw [ofRatio, if_neg hnum.ne']
  rfl

/-- A quotient nearest to a number has the exponent of the number, unless the number is a power of two and
the quotient is below it. -/
theorem RoundsTo.hasExponent {q : ℚ} (hx : x.Normal) (h : RoundsTo q x)
    (hpower : x.mantissa = 2 ^ 52 → leastExponent < x.exponent → 2 ^ 52 * 2 ^ x.exponent ≤ q) :
    HasExponent q x.exponent := by
  have hlow := h.low_le
  have hhigh := h.le_high
  have hpos : (0 : ℚ) < 2 ^ x.exponent := by positivity
  rw [lowEnd] at hlow
  rw [highEnd] at hhigh
  have hm : (x.mantissa : ℚ) + 1 ≤ 2 ^ 53 := by exact_mod_cast hx.mantissa_lt
  refine ⟨hx.least_le, by nlinarith, ?_⟩
  rcases hx.full with hleast | hfull
  · exact Or.inl hleast
  rcases hx.least_le.eq_or_lt with hleast | hinner
  · exact Or.inl hleast.symm
  rcases hfull.eq_or_lt with heq | hlt
  · exact Or.inr (hpower heq.symm hinner)
  · rw [if_neg fun h => hlt.ne' h.1] at hlow
    have hm : (2 : ℚ) ^ 52 + 1 ≤ x.mantissa := by exact_mod_cast hlt
    exact Or.inr (by nlinarith)

/-- At the exponent of a number, a quotient nearest to it is rounded to its mantissa. -/
theorem RoundsTo.roundQuotient_eq (hden : 0 < den) (h : RoundsTo (num / den) x) :
    roundQuotient (unscale num den x.exponent).1 (unscale num den x.exponent).2 = x.mantissa := by
  have hpos : (0 : ℚ) < 2 ^ x.exponent := by positivity
  have hlow : (x.mantissa - 1 / 2) * 2 ^ x.exponent ≤ x.lowEnd := by
    rw [lowEnd]
    refine mul_le_mul_of_nonneg_right ?_ hpos.le
    split <;> linarith
  refine roundQuotient_unscale hden (hlow.trans h.low_le) h.le_high ?_
  rw [RoundsTo] at h
  split at h
  · exact Or.inl ‹_›
  · exact Or.inr ⟨hlow.trans_lt h.1, h.2⟩

/-- Below a power of two the exponent is one less, and a quotient nearest to the power is rounded up to a
mantissa of 54 bits. -/
theorem RoundsTo.roundQuotient_of_lt (hden : 0 < den) (h : RoundsTo (num / den) x)
    (hm : x.mantissa = 2 ^ 52) (hinner : leastExponent < x.exponent)
    (hlt : (num / den : ℚ) < 2 ^ 52 * 2 ^ x.exponent) :
    HasExponent (num / den) (x.exponent - 1) ∧
      roundQuotient (unscale num den (x.exponent - 1)).1 (unscale num den (x.exponent - 1)).2 =
        2 ^ 53 := by
  have hlow := h.low_le
  rw [lowEnd, if_pos ⟨hm, hinner⟩, hm] at hlow
  push_cast at hlow
  have hhalf : (2 : ℚ) ^ x.exponent = 2 * 2 ^ (x.exponent - 1) := by
    rw [← zpow_one_add₀ (by norm_num)]
    congr 1
    omega
  have hpos : (0 : ℚ) < 2 ^ (x.exponent - 1) := by positivity
  refine ⟨⟨by omega, by linarith, Or.inr (by linarith)⟩, ?_⟩
  exact roundQuotient_unscale hden (by push_cast; linarith) (by push_cast; linarith)
    (Or.inl (by norm_num))

/-- **Rounding.**  Every quotient nearest to a number rounds to it. -/
theorem ofRatio_eq_some (hx : x.Normal) (hm : 0 < x.mantissa) (hden : 0 < den)
    (h : RoundsTo (num / den) x) : ofRatio x.negative num den = some x := by
  have hpos : (0 : ℚ) < 2 ^ x.exponent := by positivity
  have hnum : 0 < num := by
    rcases Nat.eq_zero_or_pos num with rfl | hnum
    · have hlow := (lowEnd_pos hm).trans h.low_le
      rw [Nat.cast_zero, zero_div] at hlow
      linarith
    · exact hnum
  by_cases hbelow : x.mantissa = 2 ^ 52 ∧ leastExponent < x.exponent ∧
      (num / den : ℚ) < 2 ^ 52 * 2 ^ x.exponent
  · obtain ⟨hpower, hinner, hlt⟩ := hbelow
    obtain ⟨he, hround⟩ := h.roundQuotient_of_lt hden hpower hinner hlt
    rw [ofRatio_of_hasExponent x.negative hnum hden he, hround]
    simp [hx.le_greatest, ← hpower]
  · have he := h.hasExponent hx fun hpower hinner =>
      not_lt.mp fun hlt => hbelow ⟨hpower, hinner, hlt⟩
    rw [ofRatio_of_hasExponent x.negative hnum hden he, h.roundQuotient_eq hden]
    simp only [if_neg hx.mantissa_lt.ne, if_neg (not_lt.mpr hx.le_greatest)]

/-- What a quotient rounds to has the form of a number. -/
theorem normal_ofRatio {negative : Bool} (hden : 0 < den) (h : ofRatio negative num den = some x) :
    x.Normal := by
  rcases Nat.eq_zero_or_pos num with rfl | hnum
  · rw [ofRatio, if_pos rfl] at h
    obtain rfl := Option.some.inj h
    exact normal_zero negative
  · have he := hasExponent_exponentOfRatio hnum hden
    rw [ofRatio_of_hasExponent negative hnum hden he] at h
    generalize exponentOfRatio num den = e at he h
    have hd := unscale_pos num hden e
    have hdq : (0 : ℚ) < (unscale num den e).2 := by exact_mod_cast hd
    have hpos : (0 : ℚ) < 2 ^ e := by positivity
    have hlt : (unscale num den e).1 / (unscale num den e).2 < 2 ^ 53 := by
      have hlt := he.lt
      rw [← div_lt_iff₀ hpos, ← unscale_div, div_lt_iff₀ hdq] at hlt
      rw [Nat.div_lt_iff_lt_mul hd]
      exact_mod_cast hlt
    have hfull : e = leastExponent ∨ 2 ^ 52 ≤ (unscale num den e).1 / (unscale num den e).2 := by
      refine he.full.imp_right fun hfull => ?_
      rw [← le_div_iff₀ hpos, ← unscale_div, le_div_iff₀ hdq] at hfull
      rw [Nat.le_div_iff_mul_le hd]
      exact_mod_cast hfull
    have hcases := roundQuotient_cases (unscale num den e).1 (unscale num den e).2
    have hleast := he.least_le
    generalize roundQuotient (unscale num den e).1 (unscale num den e).2 = m at h hcases
    generalize (unscale num den e).1 / (unscale num den e).2 = q at hlt hfull hcases
    by_cases hm : m = 2 ^ 53
    · simp only [if_pos hm, Option.ite_none_left_eq_some, Option.some.injEq] at h
      obtain ⟨hgreatest, rfl⟩ := h
      exact ⟨by norm_num, by dsimp only; omega, not_lt.mp hgreatest, Or.inr le_rfl⟩
    · simp only [if_neg hm, Option.ite_none_left_eq_some, Option.some.injEq] at h
      obtain ⟨hgreatest, rfl⟩ := h
      exact ⟨by dsimp only; omega, hleast, not_lt.mp hgreatest, by dsimp only; omega⟩

end OfRatio

/-! ## Decimal numerals -/

/-- The powers of ten around a positive natural number. -/
theorem pow_digitCount_bounds {n : Nat} (h : 0 < n) :
    (10 : ℚ) ^ ((digitCount n : ℤ) - 1) ≤ n ∧ (n : ℚ) < 10 ^ (digitCount n : ℤ) := by
  have hcount : ∀ k, 0 < k → (digitCount n ≤ k ↔ n < 10 ^ k) := fun k hk =>
    Nat.length_toDigits_le_iff (by norm_num) hk
  have hpos : 0 < digitCount n := Nat.length_toDigits_pos
  constructor
  · obtain ⟨k, hk⟩ := Nat.exists_eq_add_of_lt hpos
    have hle : 10 ^ k ≤ n := by
      rcases Nat.eq_zero_or_pos k with rfl | hkpos
      · exact h
      · exact not_lt.mp fun hlt => by
          have := (hcount k hkpos).mpr hlt
          omega
    rw [show (digitCount n : ℤ) - 1 = k by omega, zpow_natCast]
    exact_mod_cast hle
  · rw [zpow_natCast]
    exact_mod_cast (hcount _ hpos).mp le_rfl

/-- The powers of two at the ends of the range, between powers of ten. -/
theorem pow_two_lt_pow_ten : 2 ^ 1024 < 10 ^ 309 ∧ 2 ^ 1075 < 10 ^ 324 := by
  decide +kernel

/-- A decimal numeral is rounded as the quotient that it stands for. -/
theorem ofDecimal_eq_ofRatio (negative : Bool) {digits : Nat} (hdigits : digits ≠ 0) {scale : ℤ}
    (hhigh : (digits * 10 ^ scale : ℚ) ≤ 2 ^ 1024) (hlow : 1 / 2 ^ 1075 ≤ (digits * 10 ^ scale : ℚ)) :
    ∃ num den : Nat, 0 < den ∧ (num / den : ℚ) = digits * 10 ^ scale ∧
      ofDecimal negative digits scale = ofRatio negative num den := by
  obtain ⟨hcountLow, hcountHigh⟩ := pow_digitCount_bounds (Nat.pos_of_ne_zero hdigits)
  have hpos : (0 : ℚ) < 10 ^ scale := by positivity
  have hmagnitude : (digitCount digits : ℤ) + scale ≤ 310 := by
    have hlt : (10 : ℚ) ^ ((digitCount digits : ℤ) - 1 + scale) < 10 ^ (309 : ℤ) := by
      calc (10 : ℚ) ^ ((digitCount digits : ℤ) - 1 + scale)
          = 10 ^ ((digitCount digits : ℤ) - 1) * 10 ^ scale := zpow_add₀ (by norm_num) _ _
        _ ≤ digits * 10 ^ scale := mul_le_mul_of_nonneg_right hcountLow hpos.le
        _ ≤ 2 ^ 1024 := hhigh
        _ < 10 ^ (309 : ℤ) := by exact_mod_cast pow_two_lt_pow_ten.1
    have := (zpow_lt_zpow_iff_right₀ (by norm_num)).mp hlt
    omega
  have hmagnitude' : -330 ≤ (digitCount digits : ℤ) + scale := by
    have hlt : (10 : ℚ) ^ (-324 : ℤ) < 10 ^ ((digitCount digits : ℤ) + scale) := by
      calc (10 : ℚ) ^ (-324 : ℤ) = 1 / 10 ^ 324 := by rw [zpow_neg, one_div]; rfl
        _ < 1 / 2 ^ 1075 := one_div_lt_one_div_of_lt (by positivity) (by exact_mod_cast pow_two_lt_pow_ten.2)
        _ ≤ digits * 10 ^ scale := hlow
        _ < 10 ^ (digitCount digits : ℤ) * 10 ^ scale := mul_lt_mul_of_pos_right hcountHigh hpos
        _ = 10 ^ ((digitCount digits : ℤ) + scale) := (zpow_add₀ (by norm_num) _ _).symm
    have := (zpow_lt_zpow_iff_right₀ (by norm_num)).mp hlt
    omega
  rw [ofDecimal, if_neg hdigits]
  simp only [if_neg (not_lt.mpr hmagnitude), if_neg (not_lt.mpr hmagnitude')]
  split
  · rename_i hscale
    obtain ⟨k, rfl⟩ := Int.eq_ofNat_of_zero_le hscale
    exact ⟨digits * 10 ^ k, 1, Nat.one_pos, by simp [zpow_natCast], rfl⟩
  · rename_i hscale
    obtain ⟨k, hk⟩ := Int.eq_ofNat_of_zero_le (show 0 ≤ -scale by omega)
    obtain rfl : scale = -(k : ℤ) := by omega
    refine ⟨digits, 10 ^ k, by positivity, ?_, by rw [neg_neg]; rfl⟩
    rw [zpow_neg, zpow_natCast, div_eq_mul_inv, Nat.cast_pow, Nat.cast_ofNat]

/-- **Decimal numerals.**  Every decimal numeral of a quotient nearest to a number is read as it. -/
theorem ofDecimal_eq_some {x : Binary64} (hx : x.Normal) (hm : 0 < x.mantissa) {digits : Nat}
    {scale : ℤ} (h : RoundsTo (digits * 10 ^ scale) x) :
    ofDecimal x.negative digits scale = some x := by
  have hleast : (2 : ℚ) ^ leastExponent ≤ 2 ^ x.exponent :=
    zpow_le_zpow_right₀ (by norm_num) hx.least_le
  have hgreatest : (2 : ℚ) ^ x.exponent ≤ 2 ^ greatestExponent :=
    zpow_le_zpow_right₀ (by norm_num) hx.le_greatest
  have hlow : 1 / 2 ^ 1075 ≤ (digits * 10 ^ scale : ℚ) := by
    calc (1 / 2 ^ 1075 : ℚ) = 1 / 2 * 2 ^ leastExponent := by
          rw [leastExponent, zpow_neg, show (1074 : ℤ) = (1074 : Nat) from rfl, zpow_natCast, pow_succ,
            ← one_div, one_div_mul_one_div_rev]
      _ ≤ 1 / 2 * 2 ^ x.exponent := by linarith
      _ ≤ x.lowEnd := lowEnd_pos hm
      _ ≤ digits * 10 ^ scale := h.low_le
  have hhigh : (digits * 10 ^ scale : ℚ) ≤ 2 ^ 1024 := by
    have hlt : (x.mantissa : ℚ) + 1 ≤ 2 ^ 53 := by exact_mod_cast hx.mantissa_lt
    calc (digits * 10 ^ scale : ℚ) ≤ x.highEnd := h.le_high
      _ ≤ 2 ^ 53 * 2 ^ x.exponent := by rw [highEnd]; gcongr; linarith
      _ ≤ 2 ^ 53 * 2 ^ greatestExponent := by gcongr
      _ = 2 ^ 1024 := by
          rw [greatestExponent, show (971 : ℤ) = (971 : Nat) from rfl, zpow_natCast, ← pow_add]
  have hdigits : digits ≠ 0 := by
    rintro rfl
    rw [Nat.cast_zero, zero_mul] at hlow
    exact absurd hlow (not_le.mpr (by positivity))
  obtain ⟨num, den, hden, hvalue, heq⟩ := ofDecimal_eq_ofRatio x.negative hdigits hhigh hlow
  rw [heq]
  exact ofRatio_eq_some hx hm hden (hvalue ▸ h)

/-- What a decimal numeral is read as has the form of a number. -/
theorem normal_ofDecimal {negative : Bool} {digits : Nat} {scale : ℤ} {x : Binary64}
    (h : ofDecimal negative digits scale = some x) : x.Normal := by
  rw [ofDecimal] at h
  split at h
  · obtain rfl := Option.some.inj h
    exact normal_zero negative
  · dsimp only at h
    split at h
    · cases h
    · split at h
      · obtain rfl := Option.some.inj h
        exact normal_zero negative
      · split at h
        · exact normal_ofRatio Nat.one_pos h
        · exact normal_ofRatio (by rw [Nat.pow_eq]; positivity) h

end ContentModel.Binary64

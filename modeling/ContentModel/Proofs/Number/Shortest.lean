import Mathlib.Data.Nat.Cast.Order.Field
import ContentModel.Number.Shortest
import ContentModel.Proofs.Number.Rounding

/-
# The shortest decimal reads back

The interval of decimals that read back as a number is wider than the distance of decimals of seventeen
digits at the number's magnitude.  So the search for a shortest decimal finds one, and what it finds lies
in the interval.

Main statements: `exists_candidate?_seventeen` (the search succeeds) and `roundsTo_shortest`.
-/

namespace ContentModel

/-! ## Decimals -/

/-- The quotient that a decimal stands for. -/
def Decimal.value (d : Decimal) : ℚ :=
  d.digits * 10 ^ d.scale

/-- Zeros at the end of the digits are made up for by the scale. -/
theorem Decimal.value_trimZeros (fuel : Nat) (d : Decimal) : (trimZeros fuel d).value = d.value := by
  induction fuel generalizing d with
  | zero => rfl
  | succ fuel ih =>
    rw [trimZeros]
    split
    · rename_i h
      obtain ⟨k, hk⟩ := Nat.dvd_of_mod_eq_zero h.2
      rw [ih, value, value, hk, Nat.mul_div_cancel_left k (by norm_num), zpow_add_one₀ (by norm_num)]
      push_cast
      ring
    · rfl

/-- A power with an exponent of either sign as a quotient of natural powers. -/
theorem pow_toNat_div {b : ℚ} (hb : b ≠ 0) (e : ℤ) : b ^ e.toNat / b ^ (-e).toNat = b ^ e := by
  rw [← zpow_natCast, ← zpow_natCast, ← zpow_sub₀ hb]
  congr 1
  omega

namespace Binary64

/-! ## The interval as quotients -/

section Interval

variable {x : Binary64}

theorem interval_den_pos (x : Binary64) : 0 < x.interval.den :=
  Nat.mul_pos (by norm_num) (Nat.two_pow_pos _)

theorem interval_value (x : Binary64) :
    (x.interval.value / x.interval.den : ℚ) = x.mantissa * 2 ^ x.exponent := by
  rw [← pow_toNat_div two_ne_zero x.exponent]
  simp only [interval, Nat.pow_eq]
  push_cast
  field_simp

theorem interval_high (x : Binary64) :
    (x.interval.high / x.interval.den : ℚ) = x.highEnd := by
  rw [highEnd, ← pow_toNat_div two_ne_zero x.exponent]
  simp only [interval, Nat.pow_eq]
  push_cast
  field_simp
  ring

theorem interval_low (h : 0 < x.mantissa) :
    (x.interval.low / x.interval.den : ℚ) = x.lowEnd := by
  rw [lowEnd, ← pow_toNat_div two_ne_zero x.exponent]
  simp only [interval, Nat.pow_eq]
  split
  · rw [Nat.cast_mul, Nat.cast_sub (by omega)]
    push_cast
    field_simp
  · rw [Nat.cast_mul, Nat.cast_sub (by omega)]
    push_cast
    field_simp
    ring

/-- A decimal lies in the interval of a number exactly if it rounds to the number. -/
theorem holds_interval_iff (h : 0 < x.mantissa) (n : Nat) (k : ℤ) :
    x.interval.holds n k = true ↔ RoundsTo (Decimal.value ⟨n, k⟩) x := by
  have hden : (0 : ℚ) < x.interval.den := by exact_mod_cast interval_den_pos x
  have hunit : (0 : ℚ) < 10 ^ (-k).toNat := by positivity
  rw [RoundsTo, ← interval_low h, ← interval_high, Decimal.value, ← pow_toNat_div (by norm_num) k,
    ← mul_div_assoc, div_le_div_iff₀ hden hunit, div_le_div_iff₀ hunit hden, div_lt_div_iff₀ hden hunit,
    div_lt_div_iff₀ hunit hden, Interval.holds, show x.interval.closed = decide (x.mantissa % 2 = 0) from rfl]
  simp only [decide_eq_true_eq, Nat.pow_eq]
  split
  · rw [decide_eq_true_eq]
    exact_mod_cast Iff.rfl
  · rw [decide_eq_true_eq]
    exact_mod_cast Iff.rfl

end Interval

/-! ## The magnitude -/

/-- The powers of ten around the value of an interval. -/
theorem Interval.pow_magnitude_bounds {i : Interval} (hden : 0 < i.den) (hvalue : 0 < i.value) :
    (10 : ℚ) ^ i.magnitude ≤ i.value / i.den ∧ (i.value / i.den : ℚ) < 10 ^ (i.magnitude + 1) := by
  have hdenq : (0 : ℚ) < i.den := by exact_mod_cast hden
  have hvalueq : (0 : ℚ) < i.value := by exact_mod_cast hvalue
  -- A quotient of at least one lies between the powers around the natural number below it.
  have hquotient : ∀ a b : Nat, 0 < b → b ≤ a →
      (10 : ℚ) ^ ((digitCount (a / b) : ℤ) - 1) ≤ a / b ∧ (a / b : ℚ) < 10 ^ (digitCount (a / b) : ℤ) := by
    intro a b hb hab
    have hbq : (0 : ℚ) < b := by exact_mod_cast hb
    obtain ⟨hlow, hhigh⟩ := pow_digitCount_bounds (Nat.div_pos hab hb)
    refine ⟨hlow.trans Nat.cast_div_le, ?_⟩
    rw [zpow_natCast] at hhigh ⊢
    have hlt : a / b < 10 ^ digitCount (a / b) := by exact_mod_cast hhigh
    rw [Nat.div_lt_iff_lt_mul hb] at hlt
    rw [div_lt_iff₀ hbq]
    exact_mod_cast hlt
  rw [magnitude]
  split
  · rename_i hle
    rw [sub_add_cancel]
    exact hquotient _ _ hden hle
  · rename_i hlt
    obtain ⟨hlow, hhigh⟩ := hquotient i.den i.value hvalue (by omega)
    have hcount : 0 < digitCount (i.den / i.value) := Nat.length_toDigits_pos
    dsimp only
    generalize digitCount (i.den / i.value) = count at hlow hhigh hcount ⊢
    have hbelow : (10 : ℚ) ^ (-(count : ℤ)) < i.value / i.den := by
      rw [zpow_neg, inv_lt_comm₀ (by positivity) (by positivity), inv_div]
      exact hhigh
    have habove : (i.value / i.den : ℚ) ≤ 10 ^ (-((count : ℤ) - 1)) := by
      rw [zpow_neg, le_inv_comm₀ (by positivity) (by positivity), inv_div]
      exact hlow
    have htest : i.den ≤ i.value * Nat.pow 10 (count - 1) ↔
        (10 : ℚ) ^ (-((count : ℤ) - 1)) ≤ i.value / i.den := by
      rw [zpow_neg, inv_le_comm₀ (by positivity) (by positivity), inv_div,
        show (count : ℤ) - 1 = (count - 1 : Nat) by omega, zpow_natCast, div_le_iff₀ hvalueq, mul_comm,
        Nat.pow_eq]
      exact_mod_cast Iff.rfl
    split
    · rename_i hpower
      refine ⟨htest.mp hpower, habove.trans_lt ?_⟩
      exact zpow_lt_zpow_right₀ (by norm_num) (by omega)
    · rename_i hpower
      refine ⟨hbelow.le, ?_⟩
      rw [show -(count : ℤ) + 1 = -((count : ℤ) - 1) by ring]
      exact not_le.mp fun h => hpower (htest.mpr h)

/-! ## The search -/

/-- A candidate lies in the interval. -/
theorem Interval.holds_of_candidate? {i : Interval} {count : Nat} {d : Decimal}
    (h : i.candidate? count = some d) : i.holds d.digits d.scale = true := by
  rw [candidate?] at h
  split at h
  · rename_i hlower
    obtain rfl := Option.some.inj h
    exact ((Bool.and_eq_true _ _).mp hlower).1
  · split at h
    · rename_i hupper
      obtain rfl := Option.some.inj h
      exact hupper
    · cases h

/-- There is no candidate only if neither neighbour lies in the interval. -/
theorem Interval.holds_of_candidate?_eq_none {i : Interval} {count : Nat}
    (h : i.candidate? count = none) :
    let k := i.magnitude - ((count : ℤ) - 1)
    let floor := (i.value * Nat.pow 10 (-k).toNat) / (i.den * Nat.pow 10 k.toNat)
    i.holds floor k = false ∧ i.holds (floor + 1) k = false := by
  rw [candidate?] at h
  dsimp only at h ⊢
  split at h
  · cases h
  · rename_i hlower
    split at h
    · cases h
    · rename_i hupper
      rw [Bool.not_eq_true] at hupper
      rw [hupper, Bool.not_false, Bool.or_true, Bool.and_true, Bool.not_eq_true] at hlower
      exact ⟨hlower, hupper⟩

/-- The natural number below a quotient at a decimal scale. -/
theorem floor_decimal_bounds (a : Nat) {b : Nat} (hb : 0 < b) (p q : Nat) :
    (((a * Nat.pow 10 q) / (b * Nat.pow 10 p) : Nat) * (10 ^ p / 10 ^ q) : ℚ) ≤ a / b ∧
      (a / b : ℚ) < (((a * Nat.pow 10 q) / (b * Nat.pow 10 p) : Nat) + 1) * (10 ^ p / 10 ^ q) := by
  have hbq : (0 : ℚ) < b := by exact_mod_cast hb
  have hp : (0 : ℚ) < 10 ^ p := by positivity
  have hq : (0 : ℚ) < 10 ^ q := by positivity
  have hpos : 0 < b * 10 ^ p := by positivity
  have hle : (a * 10 ^ q) / (b * 10 ^ p) * (b * 10 ^ p) ≤ a * 10 ^ q := Nat.div_mul_le_self _ _
  have hlt : a * 10 ^ q < (b * 10 ^ p) * ((a * 10 ^ q) / (b * 10 ^ p) + 1) :=
    Nat.lt_mul_div_succ _ hpos
  simp only [Nat.pow_eq]
  generalize (a * 10 ^ q) / (b * 10 ^ p) = floor at hle hlt ⊢
  rw [← mul_div_assoc, ← mul_div_assoc, div_le_div_iff₀ hq hbq, div_lt_div_iff₀ hbq hq]
  constructor
  · calc (floor * 10 ^ p * b : ℚ) = (floor * (b * 10 ^ p) : Nat) := by push_cast; ring
      _ ≤ (a * 10 ^ q : Nat) := by exact_mod_cast hle
      _ = a * 10 ^ q := by push_cast; rfl
  · calc (a * 10 ^ q : ℚ) = (a * 10 ^ q : Nat) := by push_cast; rfl
      _ < (b * 10 ^ p * (floor + 1) : Nat) := by exact_mod_cast hlt
      _ = (floor + 1) * 10 ^ p * b := by push_cast; ring

section Search

variable {x : Binary64}

theorem lowEnd_lt_value (x : Binary64) : x.lowEnd < x.mantissa * 2 ^ x.exponent := by
  have hpos : (0 : ℚ) < 2 ^ x.exponent := by positivity
  rw [lowEnd]
  refine mul_lt_mul_of_pos_right ?_ hpos
  split <;> linarith

theorem value_lt_highEnd (x : Binary64) : x.mantissa * 2 ^ x.exponent < x.highEnd := by
  have hpos : (0 : ℚ) < 2 ^ x.exponent := by positivity
  rw [highEnd]
  exact mul_lt_mul_of_pos_right (by linarith) hpos

/-- What is below a number and does not round to it is below the interval of the number. -/
theorem le_lowEnd_of_not_roundsTo {q : ℚ} (h : ¬ RoundsTo q x) (hle : q ≤ x.mantissa * 2 ^ x.exponent) :
    q ≤ x.lowEnd := by
  have hhigh := value_lt_highEnd x
  rw [RoundsTo] at h
  by_contra hlt
  refine h ?_
  split
  · exact ⟨(not_le.mp hlt).le, hle.trans hhigh.le⟩
  · exact ⟨not_le.mp hlt, hle.trans_lt hhigh⟩

/-- What is above a number and does not round to it is above the interval of the number. -/
theorem highEnd_le_of_not_roundsTo {q : ℚ} (h : ¬ RoundsTo q x) (hle : x.mantissa * 2 ^ x.exponent ≤ q) :
    x.highEnd ≤ q := by
  have hlow := lowEnd_lt_value x
  rw [RoundsTo] at h
  by_contra hlt
  refine h ?_
  split
  · exact ⟨hlow.le.trans hle, (not_le.mp hlt).le⟩
  · exact ⟨hlow.trans_le hle, not_le.mp hlt⟩

/-- **Seventeen digits.**  The interval of a number holds a decimal of seventeen digits. -/
theorem exists_candidate?_seventeen (hm : 0 < x.mantissa) (hlt : x.mantissa < 2 ^ 53) :
    x.interval.candidate? 17 ≠ none := by
  intro hnone
  obtain ⟨hlower, hupper⟩ := Interval.holds_of_candidate?_eq_none hnone
  have hden : 0 < x.interval.den := interval_den_pos x
  have hvaluePos : 0 < x.interval.value := Nat.mul_pos (by omega) (Nat.two_pow_pos _)
  obtain ⟨hmagnitude, -⟩ := Interval.pow_magnitude_bounds hden hvaluePos
  rw [interval_value] at hmagnitude
  have hdenq : (0 : ℚ) < x.interval.den := by exact_mod_cast hden
  have hvalue := interval_value x
  generalize hk : x.interval.magnitude - (((17 : Nat) : ℤ) - 1) = k at hlower hupper
  generalize hfloor : x.interval.value * Nat.pow 10 (-k).toNat / (x.interval.den * Nat.pow 10 k.toNat) =
    floor at hlower hupper
  have hpos : (0 : ℚ) < 2 ^ x.exponent := by positivity
  have hunit : (0 : ℚ) < 10 ^ k := by positivity
  -- The value lies between the two decimals.
  obtain ⟨hfloorLe, hltFloor⟩ : (floor * 10 ^ k : ℚ) ≤ x.mantissa * 2 ^ x.exponent ∧
      (x.mantissa * 2 ^ x.exponent : ℚ) < (floor + 1) * 10 ^ k := by
    rw [← hvalue, ← pow_toNat_div (by norm_num) k, ← hfloor]
    exact floor_decimal_bounds _ hden _ _
  -- So the interval is no wider than their distance.
  rw [← Bool.not_eq_true, holds_interval_iff hm, Decimal.value] at hlower hupper
  push_cast at hupper
  have hlowEnd : (floor * 10 ^ k : ℚ) ≤ x.lowEnd := le_lowEnd_of_not_roundsTo hlower hfloorLe
  have hhighEnd : x.highEnd ≤ (floor + 1) * 10 ^ k := highEnd_le_of_not_roundsTo hupper hltFloor.le
  have hsixteen : (10 : ℚ) ^ x.interval.magnitude = 10 ^ 16 * 10 ^ k := by
    rw [← hk, ← zpow_natCast (10 : ℚ) 16, ← zpow_add₀ (by norm_num)]
    congr 1
    push_cast
    ring
  rw [hsixteen] at hmagnitude
  have hwidth : (10 : ℚ) ^ k < x.highEnd - x.lowEnd := by
    rw [highEnd, lowEnd, ← sub_mul]
    split
    · rename_i hpower
      rw [hpower.1] at hmagnitude ⊢
      push_cast at hmagnitude ⊢
      linarith
    · have hltq : (x.mantissa : ℚ) + 1 ≤ 2 ^ 53 := by exact_mod_cast hlt
      nlinarith
  linarith

/-- **The shortest decimal.**  It reads back as the number. -/
theorem roundsTo_shortest (hm : 0 < x.mantissa) (hlt : x.mantissa < 2 ^ 53) :
    RoundsTo x.shortest.value x := by
  rw [shortest, if_neg hm.ne']
  dsimp only
  rw [Decimal.value_trimZeros]
  have hfound : ((List.range 17).findSome? fun n => x.interval.candidate? (n + 1)) ≠ none := by
    intro hnone
    rw [List.findSome?_eq_none_iff] at hnone
    exact exists_candidate?_seventeen hm hlt (hnone 16 (by simp))
  obtain ⟨d, hd⟩ := Option.ne_none_iff_exists'.mp hfound
  obtain ⟨n, -, hcandidate⟩ := List.exists_of_findSome?_eq_some hd
  rw [hd, Option.getD_some]
  exact (holds_interval_iff hm d.digits d.scale).mp (Interval.holds_of_candidate? hcandidate)

end Search

end Binary64

end ContentModel

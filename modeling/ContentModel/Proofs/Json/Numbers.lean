import Mathlib.Data.List.TakeWhile
import ContentModel.Json.Printer
import ContentModel.Json.Token
import ContentModel.Proofs.Number.Shortest

/-
# Numbers in JSON text

A numeral is read in three parts: the digits before the point, those after it, and an exponent.  Each
layout of a number writes these parts so that the numeral stands for the number's shortest decimal, which
reads back as the number.

Main statements: `number?_text` (what is written for a number is read as it) and `wellFormed_of_number?`
(what is read is in range).
-/

namespace ContentModel.Json

/-! ## Numbers in range -/

/-- A number that JSON text can hold: an integer of 64 bits, or a floating point number in its one
form. -/
def Number.WellFormed : Number → Prop
  | .integer n => -2 ^ 63 ≤ n ∧ n < 2 ^ 64
  | .real x => x.Normal

/-- What is read as a number is in range. -/
theorem wellFormed_of_number? {numeral : Numeral} {n : Number} (h : numeral.number? = some n) :
    n.WellFormed := by
  rw [Numeral.number?] at h
  simp only [Nat.pow_eq] at h
  split at h
  · rename_i hplain
    obtain rfl := Option.some.inj h
    exact ⟨by omega, by exact_mod_cast hplain.2.2⟩
  · split at h
    · rename_i hplain
      obtain rfl := Option.some.inj h
      refine ⟨?_, by omega⟩
      have := hplain.2.2.2
      omega
    · obtain ⟨x, hx, rfl⟩ := Option.map_eq_some_iff.mp h
      exact Binary64.normal_ofDecimal hx

/-! ## Digits -/

/-- A text of digits. -/
def AreDigits (cs : List Char) : Prop :=
  ∀ c ∈ cs, c.isDigit = true

theorem areDigits_digits (n : Nat) : AreDigits (digits n) :=
  fun _ hc => Nat.isDigit_of_mem_toDigits (by norm_num) (by norm_num) hc

theorem digits_ne_nil (n : Nat) : digits n ≠ [] :=
  Nat.toDigits_ne_nil

theorem AreDigits.append {cs ds : List Char} (hcs : AreDigits cs) (hds : AreDigits ds) :
    AreDigits (cs ++ ds) := fun c hc =>
  (List.mem_append.mp hc).elim (hcs c) (hds c)

theorem AreDigits.of_sublist {cs ds : List Char} (h : AreDigits ds) (hsub : cs.Sublist ds) :
    AreDigits cs := fun c hc => h c (hsub.subset hc)

theorem areDigits_zeros (n : Nat) : AreDigits (List.replicate n '0') := fun c hc => by
  rw [List.eq_of_mem_replicate hc]
  rfl

namespace Numeral

theorem natOfDigits_eq (cs : List Char) : natOfDigits cs = Nat.ofDigitChars 10 cs 0 := by
  rw [natOfDigits, Nat.ofDigitChars_eq_foldl]

/-- The digits of a number stand for it. -/
theorem natOfDigits_digits (n : Nat) : natOfDigits (Json.digits n) = n := by
  rw [natOfDigits_eq, Json.digits, Nat.ofDigitChars_ten_toDigits]

/-- Zeros before digits do not count. -/
theorem natOfDigits_zeros_append (n : Nat) (cs : List Char) :
    natOfDigits (List.replicate n '0' ++ cs) = natOfDigits cs := by
  rw [natOfDigits_eq, natOfDigits_eq, Nat.ofDigitChars_append, Nat.ofDigitChars_replicate_zero, mul_zero]

/-- Zeros after digits multiply by powers of ten. -/
theorem natOfDigits_append_zeros (cs : List Char) (n : Nat) :
    natOfDigits (cs ++ List.replicate n '0') = 10 ^ n * natOfDigits cs := by
  rw [natOfDigits_eq, natOfDigits_eq, Nat.ofDigitChars_append, Nat.ofDigitChars_replicate_zero]

end Numeral

/-- The digits of a positive number start with one that is not zero. -/
theorem head?_digits {n : Nat} (h : n ≠ 0) : (digits n).head? ≠ some '0' := by
  induction n using Nat.strongRecOn with
  | ind n ih =>
    rw [digits]
    by_cases hlt : n < 10
    · rw [Nat.toDigits_of_lt_base hlt, List.head?_cons, ne_eq, Option.some.injEq, Nat.digitChar_eq_zero]
      exact h
    · rw [Nat.toDigits_of_base_le (by norm_num) (by omega),
        List.head?_append_of_ne_nil _ Nat.toDigits_ne_nil]
      exact ih (n / 10) (by omega) (by omega)

/-! ## Reading numerals -/

/-- The digits before the point: at least one, and no zero before another digit. -/
structure IsWhole (whole : List Char) : Prop where
  areDigits : AreDigits whole
  ne_nil : whole ≠ []
  head : whole.head? = some '0' → whole.length = 1

/-- The sign of a numeral. -/
def sign (negative : Bool) : List Char :=
  if negative then ['-'] else []

namespace Numeral

/-- Digits are taken up to the first other character. -/
theorem takeDigits?_append {ds rest : List Char} (hds : AreDigits ds) (hne : ds ≠ [])
    (hrest : ∀ c ∈ rest.head?, c.isDigit = false) : takeDigits? (ds ++ rest) = some (ds, rest) := by
  have hnone : rest.takeWhile Char.isDigit = [] ∧ rest.dropWhile Char.isDigit = rest := by
    cases rest with
    | nil => simp
    | cons c rest =>
      have hc := hrest c (by simp)
      simp [hc]
  rw [takeDigits?, List.takeWhile_append_of_pos hds, List.dropWhile_append_of_pos hds, hnone.1, hnone.2,
    List.append_nil]
  split
  · contradiction
  · rfl

theorem takeDigits?_digits {ds : List Char} (hds : AreDigits ds) (hne : ds ≠ []) :
    takeDigits? ds = some (ds, []) := by
  have hend : ∀ c ∈ ([] : List Char).head?, c.isDigit = false := by simp
  have h := takeDigits?_append hds hne hend
  rwa [List.append_nil] at h

/-- A numeral is read from the digits before the point on. -/
theorem ofChars?_append {whole rest : List Char} (hwhole : IsWhole whole)
    (hrest : ∀ c ∈ rest.head?, c.isDigit = false) (negative : Bool) :
    ofChars? (sign negative ++ whole ++ rest) = afterWhole? negative whole rest := by
  have hdigits := takeDigits?_append hwhole.areDigits hwhole.ne_nil hrest
  obtain ⟨c, cs, rfl⟩ := List.exists_cons_of_ne_nil hwhole.ne_nil
  have hc : c ≠ '-' := by
    rintro rfl
    exact absurd (hwhole.areDigits '-' List.mem_cons_self) (by decide)
  have hsign : ((sign negative ++ (c :: cs) ++ rest).head? = some '-') = (negative = true) := by
    cases negative <;> simp [sign, hc]
  have hunsigned : (if negative = true then (sign negative ++ (c :: cs) ++ rest).tail
      else sign negative ++ (c :: cs) ++ rest) = (c :: cs) ++ rest := by
    cases negative <;> simp [sign]
  rw [ofChars?]
  simp only [hsign, hunsigned, hdigits, Bool.decide_eq_true]
  split
  · contradiction
  · rename_i d ds rest' heq
    obtain ⟨hzero, -⟩ := Prod.mk.inj (Option.some.inj heq)
    have hlength := hwhole.head (by rw [hzero]; rfl)
    rw [hzero] at hlength
    simp at hlength
  · rename_i whole rest' _ heq
    obtain ⟨rfl, rfl⟩ := Prod.mk.inj (Option.some.inj heq)
    rfl

/-- Digits with a fraction. -/
theorem afterWhole?_fraction (negative : Bool) (whole : List Char) {fraction : List Char}
    (hfraction : AreDigits fraction) (hne : fraction ≠ []) :
    afterWhole? negative whole ('.' :: fraction) =
      some ⟨negative, natOfDigits (whole ++ fraction), -fraction.length, false⟩ := by
  rw [afterWhole?, takeDigits?_digits hfraction hne]
  rfl

/-- Digits with an exponent, and with a fraction if there is one. -/
theorem afterWhole?_exponent (negative : Bool) (whole : List Char) {fraction exponent : List Char}
    (hfraction : AreDigits fraction) {e : ℤ} (hexponent : exponent? exponent = some e) :
    afterWhole? negative whole
        ((if fraction.isEmpty then [] else '.' :: fraction) ++ 'e' :: exponent) =
      some ⟨negative, natOfDigits (whole ++ fraction), e - fraction.length, false⟩ := by
  by_cases hne : fraction = []
  · simp [hne, afterWhole?, afterWhole?.afterFraction?, hexponent]
  · rw [if_neg (by simpa using hne), List.cons_append, afterWhole?,
      takeDigits?_append hfraction hne (by simp)]
    simp [afterWhole?.afterFraction?, hexponent]

/-- An exponent is read with its sign. -/
theorem exponent?_digits (e : ℤ) :
    exponent? ((if 0 ≤ e then '+' else '-') :: Json.digits e.natAbs) = some e := by
  have hdigits := takeDigits?_digits (areDigits_digits e.natAbs) (digits_ne_nil _)
  split
  · rw [exponent?, exponent?.signed, hdigits]
    simp only [natOfDigits_digits]
    congr 1
    omega
  · rw [exponent?, exponent?.signed, hdigits]
    simp only [natOfDigits_digits]
    congr 1
    omega

/-! ## The characters of numerals -/

theorem takeDigits?_eq_some {cs ds rest : List Char} (h : takeDigits? cs = some (ds, rest)) :
    AreDigits ds ∧ ds ≠ [] ∧ cs = ds ++ rest := by
  rw [takeDigits?] at h
  split at h
  · cases h
  · rename_i hne
    obtain ⟨rfl, rfl⟩ := Prod.mk.inj (Option.some.inj h)
    exact ⟨fun c hc => List.mem_takeWhile_imp hc, hne, List.takeWhile_append_dropWhile.symm⟩

theorem isNumeral_of_isDigit {c : Char} (h : c.isDigit = true) : Token.isNumeral c = true := by
  simp [Token.isNumeral, h]

theorem isNumeral_of_exponent? {cs : List Char} {e : ℤ} (h : exponent? cs = some e) :
    ∀ c ∈ cs, Token.isNumeral c = true := by
  have hsigned : ∀ {cs : List Char} {k : ℤ}, exponent?.signed cs k = some e →
      ∀ c ∈ cs, Token.isNumeral c = true := by
    intro cs k h c hc
    rw [exponent?.signed] at h
    split at h
    · rename_i ds hds
      obtain ⟨hdigits, -, rfl⟩ := takeDigits?_eq_some hds
      rw [List.append_nil] at hc
      exact isNumeral_of_isDigit (hdigits c hc)
    · cases h
  rw [exponent?.eq_def] at h
  split at h
  · exact List.forall_mem_cons.mpr ⟨rfl, hsigned h⟩
  · exact List.forall_mem_cons.mpr ⟨rfl, hsigned h⟩
  · exact hsigned h

theorem isNumeral_of_afterWhole? {negative : Bool} {whole rest : List Char} {n : Numeral}
    (h : afterWhole? negative whole rest = some n) : ∀ c ∈ rest, Token.isNumeral c = true := by
  have hafter : ∀ {fraction rest : List Char},
      afterWhole?.afterFraction? negative whole fraction rest = some n →
      ∀ c ∈ rest, Token.isNumeral c = true := by
    intro fraction rest h
    cases rest with
    | nil => simp
    | cons c rest =>
      rw [afterWhole?.afterFraction?] at h
      split at h
      · rename_i hc
        obtain ⟨e, he, -⟩ := Option.map_eq_some_iff.mp h
        exact List.forall_mem_cons.mpr ⟨by rcases hc with rfl | rfl <;> rfl, isNumeral_of_exponent? he⟩
      · cases h
  rw [afterWhole?.eq_def] at h
  split at h
  · simp
  · split at h
    · cases h
    · rename_i fraction rest' hfraction
      obtain ⟨hdigits, -, rfl⟩ := takeDigits?_eq_some hfraction
      refine List.forall_mem_cons.mpr ⟨rfl, List.forall_mem_append.mpr ⟨?_, hafter h⟩⟩
      exact fun c hc => isNumeral_of_isDigit (hdigits c hc)
  · exact hafter h

/-- A numeral starts with a digit or the sign, and consists of the characters of numerals. -/
theorem isNumeral_of_ofChars? {cs : List Char} {n : Numeral} (h : ofChars? cs = some n) :
    (∃ c rest, cs = c :: rest ∧ (c.isDigit || c = '-') = true) ∧ ∀ c ∈ cs, Token.isNumeral c = true := by
  rw [ofChars?] at h
  split at h
  · cases h
  · cases h
  · rename_i whole rest _ hwhole
    obtain ⟨hdigits, hne, hsplit⟩ := takeDigits?_eq_some hwhole
    have hchars : ∀ c ∈ whole ++ rest, Token.isNumeral c = true := List.forall_mem_append.mpr
      ⟨fun c hc => isNumeral_of_isDigit (hdigits c hc), isNumeral_of_afterWhole? h⟩
    split at hsplit
    · rename_i hsign
      obtain ⟨rest', rfl⟩ := List.head?_eq_some_iff.mp hsign
      rw [List.tail_cons] at hsplit
      exact ⟨⟨'-', rest', rfl, rfl⟩, List.forall_mem_cons.mpr ⟨rfl, hsplit ▸ hchars⟩⟩
    · obtain ⟨c, whole, rfl⟩ := List.exists_cons_of_ne_nil hne
      refine ⟨⟨c, whole ++ rest, hsplit, ?_⟩, hsplit ▸ hchars⟩
      rw [hdigits c List.mem_cons_self, Bool.true_or]

end Numeral

/-! ## The layouts of a decimal -/

section Layout

variable {d : Decimal}

/-- The digits of a positive number, or the first of them, can stand before a point. -/
theorem isWhole_take_digits {n : Nat} (h : n ≠ 0) {k : Nat} (hk : 0 < k) : IsWhole ((digits n).take k) where
  areDigits := (areDigits_digits n).of_sublist (List.take_sublist _ _)
  ne_nil := by
    rw [ne_eq, List.take_eq_nil_iff, not_or]
    exact ⟨hk.ne', digits_ne_nil n⟩
  head := by
    intro hhead
    rw [List.head?_take, if_neg hk.ne'] at hhead
    exact absurd hhead (head?_digits h)

/-- Digits with zeros before them, up to the last `places`, are those of a whole number, if there are just
enough zeros for one digit to be left. -/
theorem isWhole_take_padded {n places : Nat} (hn : n ≠ 0) (hplaces : 0 < places) {padded : List Char}
    (hpadded : List.replicate (places + 1 - (digits n).length) '0' ++ digits n = padded) :
    IsWhole (padded.take (padded.length - places)) := by
  have hareDigits : AreDigits padded := hpadded ▸ (areDigits_zeros _).append (areDigits_digits n)
  have hlength : padded.length = places + 1 - (digits n).length + (digits n).length := by
    rw [← hpadded, List.length_append, List.length_replicate]
  refine ⟨hareDigits.of_sublist (List.take_sublist _ _), ?_, ?_⟩
  · rw [ne_eq, List.take_eq_nil_iff, not_or]
    exact ⟨by omega, List.ne_nil_of_length_pos (by omega)⟩
  · intro hhead
    rw [List.head?_take, if_neg (by omega), ← hpadded] at hhead
    -- A zero at the start was put there, so that one digit stands before the point.
    have hshort : (digits n).length ≤ places := by
      by_contra hlong
      rw [show places + 1 - (digits n).length = 0 by omega] at hhead
      exact head?_digits hn hhead
    rw [List.length_take]
    omega

/-- A positive decimal in positional notation is digits with a fraction. -/
theorem exists_positional (h : d.digits ≠ 0) :
    ∃ whole fraction, IsWhole whole ∧ AreDigits fraction ∧ fraction ≠ [] ∧
      positional d = whole ++ '.' :: fraction ∧
      (Numeral.natOfDigits (whole ++ fraction) * 10 ^ (-fraction.length : ℤ) : ℚ) = d.value := by
  have hdigits := areDigits_digits d.digits
  rw [positional, Decimal.value]
  split
  · rename_i hscale
    obtain ⟨k, hk⟩ := Int.eq_ofNat_of_zero_le hscale
    refine ⟨digits d.digits ++ List.replicate k '0', ['0'],
      ⟨hdigits.append (areDigits_zeros k), by simp [digits_ne_nil], ?_⟩, areDigits_zeros 1, by simp, ?_, ?_⟩
    · rw [List.head?_append_of_ne_nil _ (digits_ne_nil _)]
      exact fun hhead => absurd hhead (head?_digits h)
    · rw [hk, Int.toNat_natCast]
    · have hvalue := Numeral.natOfDigits_append_zeros (digits d.digits) (k + 1)
      rw [List.replicate_succ', ← List.append_assoc, Numeral.natOfDigits_digits] at hvalue
      rw [hvalue, hk, zpow_natCast, List.length_singleton, Nat.cast_one, zpow_neg_one, pow_succ]
      push_cast
      ring
  · rename_i hscale
    obtain ⟨places, hplaces⟩ := Int.eq_ofNat_of_zero_le (show 0 ≤ -d.scale by omega)
    rw [hplaces, Int.toNat_natCast]
    have hpos : 0 < places := by omega
    generalize hpadded : List.replicate (places + 1 - (digits d.digits).length) '0' ++ digits d.digits =
      padded
    have hpaddedDigits : AreDigits padded := hpadded ▸ (areDigits_zeros _).append hdigits
    have hlength : places + 1 ≤ padded.length := by
      rw [← hpadded, List.length_append, List.length_replicate]
      omega
    refine ⟨padded.take (padded.length - places), padded.drop (padded.length - places),
      isWhole_take_padded h hpos hpadded, hpaddedDigits.of_sublist (List.drop_sublist _ _), ?_, ?_, ?_⟩
    · exact List.ne_nil_of_length_pos (by rw [List.length_drop]; omega)
    · dsimp only
      rw [hpadded, List.append_assoc, List.singleton_append]
    · rw [List.take_append_drop, ← hpadded, Numeral.natOfDigits_zeros_append, Numeral.natOfDigits_digits,
        hpadded, List.length_drop, show d.scale = -(places : ℤ) by omega]
      congr 2
      omega

/-- A positive decimal in scientific notation is read as it is. -/
theorem ofChars?_scientific (negative : Bool) (h : d.digits ≠ 0) :
    Numeral.ofChars? (sign negative ++ scientific d) = some ⟨negative, d.digits, d.scale, false⟩ := by
  have hfraction : AreDigits ((digits d.digits).drop 1) :=
    (areDigits_digits d.digits).of_sublist (List.drop_sublist _ _)
  have hlength : 0 < (digits d.digits).length := Nat.length_toDigits_pos
  have hread := Numeral.afterWhole?_exponent negative ((digits d.digits).take 1) hfraction
    (Numeral.exponent?_digits d.magnitude)
  rw [List.take_append_drop, Numeral.natOfDigits_digits, List.length_drop] at hread
  rw [scientific]
  simp only [List.append_assoc, List.cons_append, List.nil_append] at hread ⊢
  rw [← List.append_assoc, Numeral.ofChars?_append (isWhole_take_digits h Nat.one_pos), hread]
  · congr 2
    rw [Decimal.magnitude, Binary64.digitCount, ← digits]
    omega
  · split <;> simp

end Layout

/-! ## Numbers -/

theorem integerText_eq (n : ℤ) : integerText n = sign (decide (n < 0)) ++ digits n.natAbs := by
  rw [integerText, sign]
  by_cases h : n < 0 <;> simp [h]

/-- The text of an integer is read as its sign and digits. -/
theorem ofChars?_integerText (n : ℤ) :
    Numeral.ofChars? (integerText n) = some ⟨decide (n < 0), n.natAbs, 0, true⟩ := by
  have hwhole : IsWhole (digits n.natAbs) := by
    by_cases h : n.natAbs = 0
    · rw [h]
      exact ⟨areDigits_digits 0, digits_ne_nil 0, fun _ => rfl⟩
    · refine ⟨areDigits_digits _, digits_ne_nil _, fun hhead => absurd hhead (head?_digits h)⟩
  have hend : ∀ c ∈ ([] : List Char).head?, c.isDigit = false := by simp
  have hread := Numeral.ofChars?_append hwhole hend (decide (n < 0))
  rw [List.append_nil] at hread
  rw [integerText_eq, hread, Numeral.afterWhole?, Numeral.natOfDigits_digits]

theorem realText_eq (x : Binary64) :
    realText x = sign x.negative ++
      if x.mantissa = 0 then ['0', '.', '0']
      else if Number.layout.least ≤ x.shortest.magnitude ∧ x.shortest.magnitude ≤ Number.layout.greatest
        then positional x.shortest
      else scientific x.shortest := by
  rw [realText, sign]
  cases x.negative <;> rfl

/-- The text of a floating point number is read as its sign and a decimal of its value. -/
theorem exists_ofChars?_realText {x : Binary64} (hx : x.Normal) :
    ∃ n k, Numeral.ofChars? (realText x) = some ⟨x.negative, n, k, false⟩ ∧
      Binary64.ofDecimal x.negative n k = some x := by
  rw [realText_eq]
  by_cases hm : x.mantissa = 0
  · rw [if_pos hm]
    refine ⟨0, -1, ?_, ?_⟩
    · cases x.negative <;> rfl
    · obtain ⟨negative, m, e⟩ := x
      have hexponent : e = Binary64.leastExponent := by
        rcases hx.full with he | hfull
        · exact he
        · dsimp only at hm hfull
          omega
      dsimp only at hm ⊢
      rw [hm, hexponent]
      rfl
  · have hpos : 0 < x.mantissa := Nat.pos_of_ne_zero hm
    have hshortest := Binary64.roundsTo_shortest hpos hx.mantissa_lt
    have hdigits : x.shortest.digits ≠ 0 := by
      intro hzero
      have hlow := hshortest.low_le
      have hend := Binary64.lowEnd_pos hpos
      have hunit : (0 : ℚ) < 2 ^ x.exponent := by positivity
      rw [Decimal.value, hzero, Nat.cast_zero, zero_mul] at hlow
      linarith
    rw [if_neg hm]
    split
    · obtain ⟨whole, fraction, hwhole, hfraction, hne, htext, hvalue⟩ := exists_positional hdigits
      refine ⟨_, _, ?_, Binary64.ofDecimal_eq_some hx hpos (hvalue.symm ▸ hshortest)⟩
      rw [htext, ← List.append_assoc, Numeral.ofChars?_append hwhole (by simp),
        Numeral.afterWhole?_fraction _ _ hfraction hne]
    · exact ⟨_, _, ofChars?_scientific x.negative hdigits,
        Binary64.ofDecimal_eq_some hx hpos hshortest⟩

/-- **Numbers.**  The text of a number in range is read as the number. -/
theorem number?_text {n : Number} (hn : n.WellFormed) :
    (Numeral.ofChars? n.text).bind Numeral.number? = some n := by
  cases n with
  | integer n =>
    obtain ⟨hlow, hhigh⟩ := hn
    rw [Number.text, ofChars?_integerText, Option.bind_some, Numeral.number?]
    by_cases hneg : n < 0
    · have hrange : n.natAbs ≤ Nat.pow 2 63 := by rw [Nat.pow_eq]; omega
      rw [if_neg (by simp [hneg]), if_pos ⟨rfl, decide_eq_true hneg, Int.natAbs_pos.mpr hneg.ne, hrange⟩,
        Int.ofNat_natAbs_of_nonpos hneg.le, neg_neg]
    · have hrange : n.natAbs < Nat.pow 2 64 := by rw [Nat.pow_eq]; omega
      rw [if_pos ⟨rfl, by simpa using hneg, hrange⟩, Int.natAbs_of_nonneg (not_lt.mp hneg)]
  | real x =>
    obtain ⟨digits, scale, hread, hdecimal⟩ := exists_ofChars?_realText hn
    rw [Number.text, hread, Option.bind_some, Numeral.number?]
    simp [hdecimal]

end ContentModel.Json

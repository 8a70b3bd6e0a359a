import ContentModel.Proofs.Text.Digits
import ContentModel.Recognition.Date

/-
# Layouts and formats of dates

A layout is matched exactly by the texts of its places.  A format takes digits, white space and a few marks
off a text, so where a layout has decimal digits, the format wants ASCII digits; and a number with all its
digits is read as such, whatever room the format leaves.

Main statements: `dropPlaces?_dateLayout_eq_some_iff` and `dropPlaces?_timeLayout_eq_some_iff` (layouts),
`readDigits?_eq_some_iff` and `skipZone?_eq_some_iff` (numbers and zones), `isPlain_of_readFormat?` (what a
format takes), `readItems?_dateItems` and `readItems?_timeItems` (what it reads).
-/

namespace ContentModel.Recognition

open ContentModel.Json (AreDigits)
open ContentModel.Text (paddedDigits areDigits_paddedDigits exists_cons_paddedDigits length_paddedDigits
  ofDigitChars_paddedDigits twoDigitsUpTo_eq_true_iff)

/-! ## Layouts -/

/-- So many decimal digits of any script. -/
def AreDecimals (count : Nat) (ds : List Char) : Prop :=
  ds.length = count ∧ ∀ d ∈ ds, Text.isDecimal d = true

/-- A place of digits is matched by so many of them. -/
theorem drop?_digits_eq_some_iff {count : Nat} {cs rest : List Char} :
    (Place.digits count).drop? cs = some rest ↔ ∃ ds, cs = ds ++ rest ∧ AreDecimals count ds := by
  unfold Place.drop? AreDecimals
  simp only [Option.ite_none_right_eq_some, Option.some.injEq, List.all_eq_true]
  constructor
  · rintro ⟨⟨hlength, hdecimal⟩, rfl⟩
    exact ⟨cs.take count, (List.take_append_drop count cs).symm, List.length_take_of_le hlength, hdecimal⟩
  · rintro ⟨ds, rfl, rfl, hdecimal⟩
    rw [List.take_left, List.drop_left, List.length_append]
    exact ⟨⟨Nat.le_add_right _ _, hdecimal⟩, rfl⟩

/-- A place of a mark is matched by one of the marks. -/
theorem drop?_mark_eq_some_iff {marks cs rest : List Char} :
    (Place.mark marks).drop? cs = some rest ↔ ∃ c, cs = c :: rest ∧ c ∈ marks := by
  cases cs with
  | nil => simp [Place.drop?]
  | cons c cs =>
    simp only [Place.drop?, Option.ite_none_right_eq_some, Option.some.injEq, List.cons.injEq]
    constructor
    · rintro ⟨hmem, rfl⟩
      exact ⟨c, ⟨rfl, rfl⟩, hmem⟩
    · rintro ⟨c', ⟨rfl, rfl⟩, hmem⟩
      exact ⟨hmem, rfl⟩

theorem dropPlaces?_nil_eq_some_iff {cs rest : List Char} : dropPlaces? [] cs = some rest ↔ cs = rest :=
  Option.some.injEq cs rest ▸ Iff.rfl

/-- A layout is matched place by place. -/
theorem dropPlaces?_cons_eq_some_iff {place : Place} {places : List Place} {cs rest : List Char} :
    dropPlaces? (place :: places) cs = some rest ↔
      ∃ cs', place.drop? cs = some cs' ∧ dropPlaces? places cs' = some rest := by
  unfold dropPlaces?
  rw [List.foldlM_cons]
  exact Option.bind_eq_some_iff

/-- One layout after another. -/
theorem dropPlaces?_append (places places' : List Place) (cs : List Char) :
    dropPlaces? (places ++ places') cs = (dropPlaces? places cs).bind (dropPlaces? places') :=
  List.foldlM_append

/-- Three texts with a mark between them. -/
def joined (mark : Char) (x y z : List Char) : List Char := x ++ mark :: (y ++ mark :: z)

/-- The layout of three numbers with a mark between them. -/
theorem dropPlaces?_joined_eq_some_iff {mark : Char} {count : Nat} {cs rest : List Char} :
    dropPlaces? [.digits count, .mark [mark], .digits 2, .mark [mark], .digits 2] cs = some rest ↔
      ∃ x y z, cs = joined mark x y z ++ rest ∧
        AreDecimals count x ∧ AreDecimals 2 y ∧ AreDecimals 2 z := by
  unfold joined
  simp only [dropPlaces?_cons_eq_some_iff, drop?_digits_eq_some_iff, drop?_mark_eq_some_iff,
    dropPlaces?_nil_eq_some_iff, List.mem_singleton]
  constructor
  · rintro ⟨_, ⟨x, rfl, hx⟩, _, ⟨_, rfl, rfl⟩, _, ⟨y, rfl, hy⟩, _, ⟨_, rfl, rfl⟩, _, ⟨z, rfl, hz⟩, rfl⟩
    exact ⟨x, y, z, by simp, hx, hy, hz⟩
  · rintro ⟨x, y, z, rfl, hx, hy, hz⟩
    exact ⟨_, ⟨x, List.append_assoc .., hx⟩, _, ⟨_, rfl, rfl⟩, _, ⟨y, List.append_assoc .., hy⟩, _,
      ⟨_, rfl, rfl⟩, _, ⟨z, rfl, hz⟩, rfl⟩

/-- The layout of a date. -/
theorem dropPlaces?_dateLayout_eq_some_iff {cs rest : List Char} :
    dropPlaces? dateLayout cs = some rest ↔
      ∃ y m d, cs = joined '-' y m d ++ rest ∧ AreDecimals 4 y ∧ AreDecimals 2 m ∧ AreDecimals 2 d :=
  dropPlaces?_joined_eq_some_iff

/-- The layout of a time. -/
theorem dropPlaces?_timeLayout_eq_some_iff {cs rest : List Char} :
    dropPlaces? timeLayout cs = some rest ↔
      ∃ sep ∈ ['T', ' '], ∃ h m s, cs = sep :: (joined ':' h m s ++ rest) ∧
        AreDecimals 2 h ∧ AreDecimals 2 m ∧ AreDecimals 2 s := by
  unfold timeLayout
  rw [dropPlaces?_cons_eq_some_iff]
  constructor
  · rintro ⟨cs', hmark, hnumbers⟩
    obtain ⟨sep, rfl, hsep⟩ := drop?_mark_eq_some_iff.mp hmark
    obtain ⟨h, m, s, rfl, hh, hm, hs⟩ := dropPlaces?_joined_eq_some_iff.mp hnumbers
    exact ⟨sep, hsep, h, m, s, rfl, hh, hm, hs⟩
  · rintro ⟨sep, hsep, h, m, s, rfl, hh, hm, hs⟩
    exact ⟨_, drop?_mark_eq_some_iff.mpr ⟨sep, rfl, hsep⟩,
      dropPlaces?_joined_eq_some_iff.mpr ⟨h, m, s, rfl, hh, hm, hs⟩⟩

/-! ## Digits -/

section Spans

variable {p : Char → Bool} {ds rest : List Char}

/-- A text starts with characters of a kind, and another one follows them. -/
theorem takeWhile_append_of_head (hds : ∀ d ∈ ds, p d = true) (hrest : ∀ c ∈ rest.head?, p c = false) :
    (ds ++ rest).takeWhile p = ds := by
  rw [List.takeWhile_append_of_pos hds]
  cases rest with
  | nil => exact List.append_nil ds
  | cons c cs => rw [List.takeWhile_cons_of_neg (by simp [hrest c rfl]), List.append_nil]

theorem dropWhile_append_of_head (hds : ∀ d ∈ ds, p d = true) (hrest : ∀ c ∈ rest.head?, p c = false) :
    (ds ++ rest).dropWhile p = rest := by
  rw [List.dropWhile_append_of_pos hds]
  cases rest with
  | nil => rfl
  | cons c cs => exact List.dropWhile_cons_of_neg (by simp [hrest c rfl])

end Spans

/-- **Reading digits.**  They are in the allowed number, and no digit follows them unless they are as many as
may be read. -/
theorem readDigits?_eq_some_iff {least most n : Nat} {cs rest : List Char} :
    readDigits? least most cs = some (n, rest) ↔
      ∃ ds, cs = ds ++ rest ∧ AreDigits ds ∧ least ≤ ds.length ∧ ds.length ≤ most ∧
        (ds.length < most → ∀ c ∈ rest.head?, c.isDigit = false) ∧ Nat.ofDigitChars 10 ds 0 = n := by
  constructor
  · intro h
    obtain ⟨hleast, hread⟩ := Option.ite_none_right_eq_some.mp h
    obtain ⟨hn, rfl⟩ := Prod.mk.inj (Option.some.inj hread)
    set ds := (cs.take most).takeWhile Char.isDigit with hds
    have hprefix : ds <+: cs := (List.takeWhile_prefix _).trans (List.take_prefix most cs)
    have hmost : ds.length ≤ most :=
      (List.takeWhile_prefix _).length_le.trans (List.length_take_le most cs)
    refine ⟨ds, List.prefix_append_drop hprefix, fun d hd => List.mem_takeWhile_imp hd, hleast, hmost,
      fun hlt c hc => ?_, hn⟩
    -- the next character is still among those that may be read, and reading stopped before it
    have hnext := calc ((cs.take most).dropWhile Char.isDigit).head?
      _ = (ds ++ (cs.take most).dropWhile Char.isDigit)[ds.length]? := by
          rw [List.getElem?_append_right le_rfl, Nat.sub_self, List.head?_eq_getElem?]
      _ = (cs.take most)[ds.length]? := by rw [hds, List.takeWhile_append_dropWhile]
      _ = cs[ds.length]? := List.getElem?_take_of_lt hlt
      _ = some c := by rw [← List.head?_drop]; exact hc
    have hstop := List.head?_dropWhile_not Char.isDigit (cs.take most)
    rw [hnext] at hstop
    exact hstop
  · rintro ⟨ds, rfl, hds, hleast, hmost, hend, rfl⟩
    have htake : ((ds ++ rest).take most).takeWhile Char.isDigit = ds := by
      rw [List.take_append, List.take_of_length_le hmost]
      refine takeWhile_append_of_head hds fun c hc => ?_
      rw [List.head?_take] at hc
      split at hc
      · cases hc
      · exact hend (by omega) c hc
    unfold readDigits?
    rw [htake]
    dsimp only
    rw [if_pos hleast, List.drop_left]

/-- A number with all its digits is read, whatever follows it. -/
theorem readDigits?_paddedDigits {least most n : Nat} (hleast : least ≤ most) (hn : n < 10 ^ most)
    (rest : List Char) : readDigits? least most (paddedDigits most n ++ rest) = some (n, rest) := by
  have hlength := length_paddedDigits most n
  exact readDigits?_eq_some_iff.mpr ⟨_, rfl, areDigits_paddedDigits most n, hleast.trans_eq hlength.symm,
    hlength.le, fun hlt => absurd hlt hlength.not_lt, ofDigitChars_paddedDigits hn⟩

/-! ## Zones -/

/-- Four characters are the hours and minutes of an offset exactly if they are two numbers in range. -/
theorem isOffsetText_eq_true_iff {h₁ h₂ m₁ m₂ : Char} :
    Text.isOffsetText h₁ h₂ m₁ m₂ = true ↔
      ∃ hour minute, hour ≤ 23 ∧ minute ≤ 59 ∧ [h₁, h₂] = paddedDigits 2 hour ∧
        [m₁, m₂] = paddedDigits 2 minute := by
  unfold Text.isOffsetText
  rw [Bool.and_eq_true, twoDigitsUpTo_eq_true_iff (by decide), twoDigitsUpTo_eq_true_iff (by decide)]
  constructor
  · rintro ⟨⟨hour, hhour, hh⟩, minute, hminute, hm⟩
    exact ⟨hour, minute, hhour, hminute, hh, hm⟩
  · rintro ⟨hour, minute, hhour, hminute, hh, hm⟩
    exact ⟨⟨hour, hhour, hh⟩, minute, hminute, hm⟩

/-- The offset of a zone, in hours and minutes. -/
def offsetText (sign : Char) (hour minute : Nat) : List Char :=
  sign :: (paddedDigits 2 hour ++ ':' :: paddedDigits 2 minute)

/-- A zone is a `Z`, in either case, or an offset. -/
theorem skipZone?_eq_some_iff {cs rest : List Char} :
    skipZone? cs = some rest ↔ cs = 'Z' :: rest ∨ cs = 'z' :: rest ∨
      ∃ sign hour minute, sign ∈ ['+', '-', '\u2212'] ∧ hour ≤ 23 ∧ minute ≤ 59 ∧
        cs = offsetText sign hour minute ++ rest := by
  constructor
  · intro h
    unfold skipZone? at h
    split at h
    case h_1 => exact .inl (congrArg _ (Option.some.inj h))
    case h_2 => exact .inr (.inl (congrArg _ (Option.some.inj h)))
    case h_3 sign h₁ h₂ m₁ m₂ cs _ _ =>
      obtain ⟨⟨hsign, hoffset⟩, hrest⟩ := Option.ite_none_right_eq_some.mp h
      obtain rfl := Option.some.inj hrest
      obtain ⟨hour, minute, hhour, hminute, hh, hm⟩ := isOffsetText_eq_true_iff.mp hoffset
      refine .inr (.inr ⟨sign, hour, minute, hsign, hhour, hminute, ?_⟩)
      rw [offsetText, ← hh, ← hm]
      rfl
    case h_4 => cases h
  · rintro (rfl | rfl | ⟨sign, hour, minute, hsign, hhour, hminute, rfl⟩)
    · rfl
    · rfl
    · have hoffset := isOffsetText_eq_true_iff.mpr ⟨hour, minute, hhour, hminute, rfl, rfl⟩
      have hsigns : sign = '+' ∨ sign = '-' ∨ sign = '\u2212' := by simpa using hsign
      rcases hsigns with rfl | rfl | rfl <;> exact if_pos ⟨hsign, hoffset⟩

/-! ## What formats take -/

/-- The characters that a format may take: ASCII digits, white space and marks. -/
def isPlain (c : Char) : Bool :=
  c.isDigit || Text.isBlank c || "+-\u2212:.TtZz".toList.contains c

/-- Whether the marks of an item, if it has any, are such characters. -/
def Item.isPlain : Item → Bool
  | .mark marks => marks.all Recognition.isPlain
  | _ => true

/-- Digits are among them. -/
theorem isPlain_of_areDigits {ds : List Char} (h : AreDigits ds) : ∀ d ∈ ds, isPlain d = true := by
  intro d hd
  unfold isPlain
  rw [h d hd]
  rfl

/-- White space is no decimal digit. -/
theorem isDecimal_of_isBlank {c : Char} (h : Text.isBlank c = true) : Text.isDecimal c = false := by
  have hblank : ∀ n ∈ [0x09, 0x0A, 0x0B, 0x0C, 0x0D, 0x20, 0x85, 0xA0, 0x1680, 0x2000, 0x2001, 0x2002, 0x2003,
      0x2004, 0x2005, 0x2006, 0x2007, 0x2008, 0x2009, 0x200A, 0x2028, 0x2029, 0x202F, 0x205F, 0x3000],
      Text.decimalRanges.any (fun r => decide (r.1 ≤ n) && decide (n ≤ r.2)) = false := by decide
  refine hblank c.toNat ?_
  simp only [Text.isBlank, Bool.or_eq_true, Bool.and_eq_true, decide_eq_true_eq, beq_iff_eq] at h
  simp only [List.mem_cons, List.not_mem_nil, or_false]
  omega

/-- A decimal digit that a format may take is an ASCII digit. -/
theorem isDigit_of_isDecimal {c : Char} (hdecimal : Text.isDecimal c = true) (hplain : isPlain c = true) :
    c.isDigit = true := by
  have hmarks : ("+-\u2212:.TtZz".toList.all fun mark => !Text.isDecimal mark) = true := by decide
  simp only [isPlain, Bool.or_eq_true, List.contains_iff_mem] at hplain
  rcases hplain with (hdigit | hblank) | hmark
  · exact hdigit
  · exact absurd hdecimal (by rw [isDecimal_of_isBlank hblank]; decide)
  · have hnot := List.all_eq_true.mp hmarks c hmark
    rw [hdecimal] at hnot
    cases hnot

/-- What is left of a text after taking characters that a format may take. -/
def Takes (cs rest : List Char) : Prop :=
  ∃ taken, cs = taken ++ rest ∧ ∀ c ∈ taken, isPlain c = true

namespace Takes

variable {cs cs' rest : List Char}

theorem refl (cs : List Char) : Takes cs cs :=
  ⟨[], rfl, by simp⟩

theorem trans (h : Takes cs cs') (h' : Takes cs' rest) : Takes cs rest := by
  obtain ⟨taken, rfl, htaken⟩ := h
  obtain ⟨taken', rfl, htaken'⟩ := h'
  refine ⟨taken ++ taken', by simp, fun c hc => ?_⟩
  exact (List.mem_append.mp hc).elim (htaken c) (htaken' c)

theorem cons {c : Char} (hc : isPlain c = true) (h : Takes cs rest) : Takes (c :: cs) rest := by
  obtain ⟨taken, rfl, htaken⟩ := h
  exact ⟨c :: taken, rfl, List.forall_mem_cons.mpr ⟨hc, htaken⟩⟩

/-- Characters of one kind are taken from the start of a text. -/
theorem dropWhile {p : Char → Bool} (hp : ∀ c, p c = true → isPlain c = true) (cs : List Char) :
    Takes cs (cs.dropWhile p) :=
  ⟨cs.takeWhile p, List.takeWhile_append_dropWhile.symm, fun _ hc => hp _ (List.mem_takeWhile_imp hc)⟩

theorem digits {least most n : Nat} (h : readDigits? least most cs = some (n, rest)) : Takes cs rest := by
  obtain ⟨ds, rfl, hds, -⟩ := readDigits?_eq_some_iff.mp h
  exact ⟨ds, rfl, isPlain_of_areDigits hds⟩

theorem loose {part : Part} {n : Int} (h : readLoose? part cs = some (n, rest)) : Takes cs rest := by
  unfold readLoose? at h
  split at h
  all_goals
    obtain ⟨⟨k, rest'⟩, hdigits, hrest⟩ := Option.map_eq_some_iff.mp h
    obtain ⟨-, rfl⟩ := Prod.mk.inj hrest
  · exact (digits hdigits).cons (by decide)
  · exact (digits hdigits).cons (by decide)
  · exact digits hdigits

theorem fraction (h : skipFraction? cs = some rest) : Takes cs rest := by
  unfold skipFraction? at h
  split at h
  · obtain ⟨⟨k, rest'⟩, hdigits, rfl⟩ := Option.map_eq_some_iff.mp h
    have hskip : Takes rest' (rest'.dropWhile Char.isDigit) :=
      dropWhile (fun c hc => by simp [isPlain, hc]) rest'
    exact ((digits hdigits).trans hskip).cons (by decide)
  · obtain rfl := Option.some.inj h
    exact refl _

theorem zone (h : skipZone? cs = some rest) : Takes cs rest := by
  obtain rfl | rfl | ⟨sign, hour, minute, hsign, -, -, rfl⟩ := skipZone?_eq_some_iff.mp h
  · exact (refl rest).cons (by decide)
  · exact (refl rest).cons (by decide)
  · have hplain : (['+', '-', '\u2212'].all isPlain) = true := by decide
    refine ⟨offsetText sign hour minute, rfl, ?_⟩
    unfold offsetText
    rw [List.forall_mem_cons, List.forall_mem_append, List.forall_mem_cons]
    exact ⟨List.all_eq_true.mp hplain sign hsign, isPlain_of_areDigits (areDigits_paddedDigits 2 hour), by decide,
      isPlain_of_areDigits (areDigits_paddedDigits 2 minute)⟩

/-- An item takes such characters, if its marks are among them. -/
theorem item {item : Item} (hitem : item.isPlain = true) {s s' : Reading × List Char}
    (h : item.read? s = some s') : Takes s.2 s'.2 := by
  obtain ⟨r, cs⟩ := s
  have hblank : Takes cs (cs.dropWhile Text.isBlank) :=
    dropWhile (fun c hc => by simp [isPlain, hc]) cs
  cases item with
  | exact part =>
    obtain ⟨⟨n, rest⟩, hdigits, rfl⟩ := Option.map_eq_some_iff.mp h
    exact digits hdigits
  | loose part =>
    obtain ⟨⟨n, rest⟩, hloose, rfl⟩ := Option.map_eq_some_iff.mp h
    exact hblank.trans (loose hloose)
  | mark marks =>
    cases cs with
    | nil => cases h
    | cons c cs =>
      have h : (if c ∈ marks then some (r, cs) else none) = some s' := h
      obtain ⟨hmem, hrest⟩ := Option.ite_none_right_eq_some.mp h
      obtain rfl := Option.some.inj hrest
      exact (refl cs).cons (List.all_eq_true.mp hitem c hmem)
  | blanks =>
    obtain rfl := Option.some.inj h
    exact hblank
  | fraction =>
    obtain ⟨rest, hskip, rfl⟩ := Option.map_eq_some_iff.mp h
    exact fraction hskip
  | zone =>
    obtain ⟨rest, hskip, rfl⟩ := Option.map_eq_some_iff.mp h
    exact zone hskip

/-- Items take such characters one after the other. -/
theorem items {items : List Item} (hitems : ∀ item ∈ items, item.isPlain = true)
    {s s' : Reading × List Char} (h : readItems? items s = some s') : Takes s.2 s'.2 := by
  induction items generalizing s with
  | nil =>
    obtain rfl := Option.some.inj h
    exact refl s.2
  | cons item items ih =>
    unfold readItems? at h
    rw [List.foldlM_cons] at h
    obtain ⟨s₁, hfirst, hrest⟩ := Option.bind_eq_some_iff.mp h
    rw [List.forall_mem_cons] at hitems
    exact (Takes.item hitems.1 hfirst).trans (ih hitems.2 hrest)

end Takes

/-- The formats of a date and a time. -/
def timeFormats : List (List Item) := zonedFormat :: localFormats

/-- **What a format takes.**  A text that a format reads is made of such characters. -/
theorem isPlain_of_readFormat? {format : List Item} (hformat : format ∈ dateFormat :: timeFormats)
    {cs : List Char} {r : Reading} (h : readFormat? format cs = some r) : ∀ c ∈ cs, isPlain c = true := by
  have hmarks : ∀ format ∈ dateFormat :: timeFormats, ∀ item ∈ format, item.isPlain = true := by decide
  unfold readFormat? at h
  split at h
  · rename_i r' hread
    obtain ⟨taken, htaken, hplain⟩ := Takes.items (hmarks format hformat) hread
    have htaken : cs = taken := by simpa using htaken
    exact htaken ▸ hplain
  · cases h

/-! ## What formats read -/

/-- An ASCII digit is a decimal digit, and no white space. -/
theorem isDecimal_of_isDigit {c : Char} (h : c.isDigit = true) : Text.isDecimal c = true := by
  obtain ⟨hlow, hhigh⟩ := Char.isDigit_iff_toNat.mp h
  refine List.any_eq_true.mpr ⟨(0x30, 0x39), by decide, ?_⟩
  exact Bool.and_eq_true_iff.mpr ⟨decide_eq_true hlow, decide_eq_true hhigh⟩

theorem isDigit_eq_false {c : Char} (h : Text.isDecimal c = false) : c.isDigit = false := by
  by_contra hdigit
  rw [isDecimal_of_isDigit (Bool.eq_true_of_not_eq_false hdigit)] at h
  cases h

theorem isBlank_eq_false {c : Char} (h : c.isDigit = true) : Text.isBlank c = false := by
  by_contra hblank
  rw [isDigit_eq_false (isDecimal_of_isBlank (Bool.eq_true_of_not_eq_false hblank))] at h
  cases h

/-- A way to read numbers that reads those with all their digits. -/
def ReadsNumbers (number : Part → Item) : Prop :=
  ∀ (part : Part) (r : Reading) {width n : Nat} (_ : n < 10 ^ width) (_ : part.width = width) (rest : List Char),
    (number part).read? (r, paddedDigits width n ++ rest) = some (r.set part n, rest)

theorem readsNumbers_exact : ReadsNumbers .exact := by
  rintro part r _ n hn rfl rest
  show (readDigits? part.width part.width _).map _ = _
  rw [readDigits?_paddedDigits le_rfl hn]
  rfl

/-- A number with all its digits starts with one of them, so neither white space nor a sign is skipped. -/
theorem readsNumbers_loose : ReadsNumbers .loose := by
  rintro part r _ n hn rfl rest
  have hpos : 0 < part.width := by cases part <;> decide
  have hread := readDigits?_paddedDigits hpos hn rest
  obtain ⟨d, ds, hds, hd⟩ := exists_cons_paddedDigits hpos n
  rw [hds] at hread ⊢
  have hloose : readLoose? part (d :: (ds ++ rest)) = some ((n : Int), rest) := by
    unfold readLoose?
    split
    case h_1 heq =>
      rw [(List.cons.inj heq).1] at hd
      exact absurd hd (by decide)
    case h_2 heq =>
      rw [(List.cons.inj heq).1] at hd
      exact absurd hd (by decide)
    case h_3 => rw [← List.cons_append, hread, Option.map_some]
  show (readLoose? part ((d :: ds ++ rest).dropWhile Text.isBlank)).map _ = _
  rw [List.cons_append, List.dropWhile_cons_of_neg (by simp [isBlank_eq_false hd]), hloose]
  rfl

theorem readItems?_cons (item : Item) (items : List Item) (s : Reading × List Char) :
    readItems? (item :: items) s = (item.read? s).bind (readItems? items) :=
  List.foldlM_cons

theorem readItems?_append (items items' : List Item) (s : Reading × List Char) :
    readItems? (items ++ items') s = (readItems? items s).bind (readItems? items') :=
  List.foldlM_append

/-- A mark is read if it is one of the marks. -/
theorem read?_mark {marks : List Char} {c : Char} (h : c ∈ marks) (r : Reading) (cs : List Char) :
    (Item.mark marks).read? (r, c :: cs) = some (r, cs) :=
  if_pos h

/-- The text of a day. -/
def dayText (year month day : Nat) : List Char :=
  joined '-' (paddedDigits 4 year) (paddedDigits 2 month) (paddedDigits 2 day)

/-- The text of a time of the day. -/
def clockText (hour minute second : Nat) : List Char :=
  joined ':' (paddedDigits 2 hour) (paddedDigits 2 minute) (paddedDigits 2 second)

/-- Numbers that the text of a day has room for. -/
structure FitsDay (year month day : Nat) : Prop where
  hyear : year < 10 ^ 4
  hmonth : month < 10 ^ 2
  hday : day < 10 ^ 2

/-- Numbers that the text of a time has room for. -/
structure FitsClock (hour minute second : Nat) : Prop where
  hhour : hour < 10 ^ 2
  hminute : minute < 10 ^ 2
  hsecond : second < 10 ^ 2

/-- What was read before, and a day. -/
def Reading.setDay (r : Reading) (year month day : Nat) : Reading :=
  ((r.set .year year).set .month month).set .day day

/-- What was read before, and a time of the day. -/
def Reading.setClock (r : Reading) (hour minute second : Nat) : Reading :=
  ((r.set .hour hour).set .minute minute).set .second second

section Numbers

variable {number : Part → Item} (hnumber : ReadsNumbers number)

include hnumber

/-- The items of three numbers with a mark between them. -/
theorem readItems?_joined {a b c : Part} {mark : Char} {wa wb wc x y z : Nat} (hx : x < 10 ^ wa)
    (hy : y < 10 ^ wb) (hz : z < 10 ^ wc) (ha : a.width = wa) (hb : b.width = wb) (hc : c.width = wc)
    (r : Reading) (rest : List Char) :
    readItems? [number a, .mark [mark], number b, .mark [mark], number c]
        (r, joined mark (paddedDigits wa x) (paddedDigits wb y) (paddedDigits wc z) ++ rest) =
      some (((r.set a x).set b y).set c z, rest) := by
  unfold joined
  rw [readItems?_cons, List.append_assoc, hnumber a r hx ha, Option.bind_some,
    readItems?_cons, List.cons_append, read?_mark (List.mem_singleton_self _), Option.bind_some,
    readItems?_cons, List.append_assoc, hnumber b _ hy hb, Option.bind_some,
    readItems?_cons, List.cons_append, read?_mark (List.mem_singleton_self _), Option.bind_some,
    readItems?_cons, hnumber c _ hz hc]
  rfl

/-- The items of a date read a day. -/
theorem readItems?_dateItems {year month day : Nat} (h : FitsDay year month day) (r : Reading)
    (rest : List Char) :
    readItems? (dateItems number) (r, dayText year month day ++ rest) = some (r.setDay year month day, rest) :=
  readItems?_joined hnumber h.hyear h.hmonth h.hday rfl rfl rfl r rest

/-- The items of a time read a time of the day. -/
theorem readItems?_timeItems {hour minute second : Nat} (h : FitsClock hour minute second) (r : Reading)
    (rest : List Char) :
    readItems? (timeItems number) (r, clockText hour minute second ++ rest) =
      some (r.setClock hour minute second, rest) :=
  readItems?_joined hnumber h.hhour h.hminute h.hsecond rfl rfl rfl r rest

end Numbers

end ContentModel.Recognition

import ContentModel.Proofs.Recognition.Formats

/-
# Which texts are dates

The layouts are wider than the formats in some places and narrower in others: layouts take digits of any
script and offsets without a colon, formats take shorter numbers, signs and white space.  Together they take
the texts of a small grammar.

Main statements: `isZone_iff` and `any_readsAsTime_iff` (what layouts and formats have in common) and
`isDateLike_iff_isDate`.
-/

namespace ContentModel.Recognition

open ContentModel.Json (AreDigits)
open ContentModel.Text (paddedDigits areDigits_paddedDigits exists_cons_paddedDigits length_paddedDigits
  ofDigitChars_lt paddedDigits_ofDigitChars)

/-! ## The grammar -/

/-- The hours, minutes and seconds of a day.  A minute may have a second 60. -/
def IsClock (hour minute second : Nat) : Prop := hour ≤ 23 ∧ minute ≤ 59 ∧ second ≤ 60

/-- A fraction of a second, or nothing. -/
inductive IsFraction : List Char → Prop
  | none : IsFraction []
  | digits {ds : List Char} (hds : AreDigits ds) (hne : ds ≠ []) : IsFraction ('.' :: ds)

/-- A zone, or nothing. -/
inductive IsZone : List Char → Prop
  | none : IsZone []
  | utc : IsZone ['Z']
  | offset {sign : Char} {hour minute : Nat} (hsign : sign ∈ ['+', '-']) (hhour : hour ≤ 23)
      (hminute : minute ≤ 59) : IsZone (offsetText sign hour minute)

/-- A time after a day, or nothing. -/
inductive IsTime : List Char → Prop
  | none : IsTime []
  | clock {sep : Char} {hour minute second : Nat} {fraction zone : List Char} (hsep : sep ∈ ['T', ' '])
      (hclock : IsClock hour minute second) (hfraction : IsFraction fraction) (hzone : IsZone zone) :
      IsTime (sep :: (clockText hour minute second ++ (fraction ++ zone)))

/-- A date, alone or with a time. -/
inductive IsDate : List Char → Prop
  | day {year month day : Nat} {time : List Char} (hyear : year ≤ 9999)
      (hday : Text.isDay year month day = true) (htime : IsTime time) :
      IsDate (dayText year month day ++ time)

/-! ## Readings -/

/-- The calendar repeats itself every 400 years. -/
theorem isDay_mod_400 (year month day : Nat) :
    Text.isDay (year % 400) month day = Text.isDay year month day := by
  have hleap : Text.isLeapYear (year % 400) = Text.isLeapYear year := by
    unfold Text.isLeapYear
    rw [Nat.mod_mod_of_dvd year (by decide : 4 ∣ 400), Nat.mod_mod_of_dvd year (by decide : 100 ∣ 400),
      Nat.mod_mod]
  unfold Text.isDay Text.daysInMonth
  rw [hleap]

/-- What was read is a day exactly if the calendar has it. -/
theorem isDay_setDay (r : Reading) {year month day : Nat} (h : FitsDay year month day) :
    (r.setDay year month day).isDay = Text.isDay year month day := by
  have hyear := h.hyear
  have hlow : (-262143 : Int) ≤ year := by omega
  have hhigh : (year : Int) ≤ 262142 := by omega
  have hyears : ((year : Int) % 400).toNat = year % 400 := by omega
  show (decide ((-262143 : Int) ≤ year) && decide ((year : Int) ≤ 262142) &&
    Text.isDay ((year : Int) % 400).toNat month day) = _
  rw [decide_eq_true hlow, decide_eq_true hhigh, hyears, isDay_mod_400]
  rfl

theorem isDay_setClock (r : Reading) (hour minute second : Nat) :
    (r.setClock hour minute second).isDay = r.isDay :=
  rfl

/-- What was read is a time exactly if the clock has it. -/
theorem isTime_setClock_iff (r : Reading) (hour minute second : Nat) :
    (r.setClock hour minute second).isTime = true ↔ IsClock hour minute second := by
  show (decide ((hour : Int) ≤ 23) && decide ((minute : Int) ≤ 59) && decide ((second : Int) ≤ 60)) = true ↔ _
  unfold IsClock
  simp only [Bool.and_eq_true, decide_eq_true_eq]
  omega

/-- The text of a day has room for the days of the calendar. -/
theorem fitsDay_of_isDay {year month day : Nat} (hyear : year ≤ 9999) (h : Text.isDay year month day = true) :
    FitsDay year month day := by
  obtain ⟨hpos, hmax⟩ := Bool.and_eq_true_iff.mp h
  have hpos : 1 ≤ day := of_decide_eq_true hpos
  have hday : day ≤ Text.daysInMonth year month := of_decide_eq_true hmax
  unfold Text.daysInMonth at hday
  split_ifs at hday <;> exact ⟨by omega, by omega, by omega⟩

/-- The text of a time has room for the times of a day. -/
theorem IsClock.fits {hour minute second : Nat} (h : IsClock hour minute second) :
    FitsClock hour minute second := by
  unfold IsClock at h
  constructor <;> omega

/-- Decimal digits that a format takes are the digits of a number. -/
theorem exists_paddedDigits {count : Nat} {ds : List Char} (h : AreDecimals count ds)
    (hplain : ∀ d ∈ ds, isPlain d = true) : ∃ n < 10 ^ count, ds = paddedDigits count n := by
  obtain ⟨rfl, hdecimal⟩ := h
  have hds : AreDigits ds := fun d hd => isDigit_of_isDecimal (hdecimal d hd) (hplain d hd)
  exact ⟨Nat.ofDigitChars 10 ds 0, ofDigitChars_lt hds, (paddedDigits_ofDigitChars hds).symm⟩

theorem areDecimals_paddedDigits (count n : Nat) : AreDecimals count (paddedDigits count n) :=
  ⟨length_paddedDigits count n, fun d hd => isDecimal_of_isDigit (areDigits_paddedDigits count n d hd)⟩

/-! ## Fractions and zones -/

/-- A text before which a fraction ends, and which has none itself. -/
def EndsFraction (cs : List Char) : Prop := ∀ c ∈ cs.head?, c ≠ '.' ∧ Text.isDecimal c = false

/-- What is skipped as a fraction is one, or nothing. -/
theorem exists_of_skipFraction? {cs rest : List Char} (h : skipFraction? cs = some rest) :
    ∃ fraction, cs = fraction ++ rest ∧ IsFraction fraction := by
  unfold skipFraction? at h
  split at h
  case h_1 cs =>
    obtain ⟨⟨n, rest'⟩, hread, rfl⟩ := Option.map_eq_some_iff.mp h
    obtain ⟨ds, rfl, hds, hpos, -⟩ := readDigits?_eq_some_iff.mp hread
    -- the digits after the ninth are skipped with the others
    refine ⟨'.' :: (ds ++ rest'.takeWhile Char.isDigit), by simp, .digits ?_ ?_⟩
    · exact hds.append fun d hd => List.mem_takeWhile_imp hd
    · rintro hnil
      rw [(List.append_eq_nil_iff.mp hnil).1] at hpos
      cases hpos
  case h_2 =>
    obtain rfl := Option.some.inj h
    exact ⟨[], rfl, .none⟩

theorem dropFraction_of_endsFraction {cs : List Char} (h : EndsFraction cs) : dropFraction cs = cs := by
  unfold dropFraction
  split
  · exact absurd rfl (h '.' rfl).1
  · rfl

theorem skipFraction?_of_endsFraction {cs : List Char} (h : EndsFraction cs) : skipFraction? cs = some cs := by
  unfold skipFraction?
  split
  · exact absurd rfl (h '.' rfl).1
  · rfl

/-- Layouts drop a fraction. -/
theorem dropFraction_append {fraction rest : List Char} (h : IsFraction fraction) (hrest : EndsFraction rest) :
    dropFraction (fraction ++ rest) = rest := by
  cases h with
  | none => exact dropFraction_of_endsFraction hrest
  | @digits ds hds hne =>
    have hdecimal : ∀ d ∈ ds, Text.isDecimal d = true := fun d hd => isDecimal_of_isDigit (hds d hd)
    have hdrop := dropWhile_append_of_head hdecimal fun c hc => (hrest c hc).2
    cases ds with
    | nil => exact absurd rfl hne
    | cons d ds =>
      have hd := hdecimal d List.mem_cons_self
      rw [List.cons_append, List.dropWhile_cons_of_pos hd] at hdrop
      show (if Text.isDecimal d = true then (ds ++ rest).dropWhile Text.isDecimal else _) = rest
      rw [if_pos hd, hdrop]

/-- Formats skip a fraction. -/
theorem skipFraction?_append {fraction rest : List Char} (h : IsFraction fraction) (hrest : EndsFraction rest) :
    skipFraction? (fraction ++ rest) = some rest := by
  cases h with
  | none => exact skipFraction?_of_endsFraction hrest
  | @digits ds hds hne =>
    have hstop : ∀ c ∈ rest.head?, c.isDigit = false := fun c hc => isDigit_eq_false (hrest c hc).2
    -- of more than nine digits, the first nine are read
    have hread : readDigits? 1 9 (ds ++ rest) = some (Nat.ofDigitChars 10 (ds.take 9) 0, ds.drop 9 ++ rest) := by
      have hpos := List.length_pos_iff.mpr hne
      have hlength := List.length_take (i := 9) (l := ds)
      refine readDigits?_eq_some_iff.mpr ⟨ds.take 9, ?_, fun d hd => hds d (List.mem_of_mem_take hd),
        by omega, by omega, fun hlt => ?_, rfl⟩
      · rw [← List.append_assoc, List.take_append_drop]
      · rw [List.drop_eq_nil_of_le (by omega)]
        exact hstop
    show (readDigits? 1 9 (ds ++ rest)).map _ = some rest
    rw [hread]
    exact congrArg some (dropWhile_append_of_head (fun d hd => hds d (List.mem_of_mem_drop hd)) hstop)

/-- A text that a format takes as a zone. -/
def SkipsZone (cs : List Char) : Prop := cs = [] ∨ skipZone? cs = some []

theorem SkipsZone.endsFraction {cs : List Char} (h : SkipsZone cs) : EndsFraction cs := by
  rintro c hc
  rcases h with rfl | h
  · cases hc
  · obtain rfl | rfl | ⟨sign, hour, minute, hsign, -, -, rfl⟩ := skipZone?_eq_some_iff.mp h
    all_goals obtain rfl := Option.some.inj hc
    · decide
    · decide
    · simp only [List.mem_cons, List.not_mem_nil, or_false] at hsign
      rcases hsign with rfl | rfl | rfl <;> decide

/-- A text with the layout of a zone starts with a mark of the layouts. -/
theorem mem_of_dropPlaces?_zoneLayouts {c : Char} {cs : List Char}
    (h : (zoneLayouts.any fun layout => dropPlaces? layout (c :: cs) == some []) = true) :
    c ∈ ['Z', '+', '-'] := by
  have hmarks : ∀ layout ∈ zoneLayouts, layout = [] ∨
      ∃ marks places, layout = .mark marks :: places ∧ marks ⊆ ['Z', '+', '-'] := by
    simp [zoneLayouts]
  obtain ⟨layout, hmem, hdrop⟩ := List.any_eq_true.mp h
  have hdrop := beq_iff_eq.mp hdrop
  rcases hmarks layout hmem with rfl | ⟨marks, places, rfl, hsub⟩
  · cases Option.some.inj hdrop
  · obtain ⟨cs', hdrop, -⟩ := dropPlaces?_cons_eq_some_iff.mp hdrop
    obtain ⟨c', hc, hmark⟩ := drop?_mark_eq_some_iff.mp hdrop
    rw [(List.cons.inj hc).1]
    exact hsub hmark

/-- **Zones.**  Of the texts that a format takes as a zone, those with the layout of one are the zones. -/
theorem isZone_iff {zone : List Char} :
    IsZone zone ↔ SkipsZone zone ∧ (zoneLayouts.any fun layout => dropPlaces? layout zone == some []) = true := by
  constructor
  · intro h
    cases h with
    | none => exact ⟨.inl rfl, by decide⟩
    | utc => exact ⟨.inr rfl, by decide⟩
    | @offset sign hour minute hsign hhour hminute =>
      have hskip : skipZone? (offsetText sign hour minute) = some [] :=
        skipZone?_eq_some_iff.mpr (.inr (.inr
          ⟨sign, hour, minute, List.mem_append_left _ hsign, hhour, hminute, (List.append_nil _).symm⟩))
      have hdrop : dropPlaces? [.mark ['+', '-'], .digits 2, .mark [':'], .digits 2]
          (offsetText sign hour minute) = some [] := by
        simp only [dropPlaces?_cons_eq_some_iff, drop?_digits_eq_some_iff, drop?_mark_eq_some_iff,
          dropPlaces?_nil_eq_some_iff]
        exact ⟨_, ⟨sign, rfl, hsign⟩, _, ⟨_, rfl, areDecimals_paddedDigits 2 hour⟩, _,
          ⟨':', rfl, List.mem_singleton_self _⟩, _,
          ⟨_, (List.append_nil _).symm, areDecimals_paddedDigits 2 minute⟩, rfl⟩
      exact ⟨.inr hskip, List.any_eq_true.mpr ⟨_, by simp [zoneLayouts], beq_iff_eq.mpr hdrop⟩⟩
  · rintro ⟨rfl | hskip, hlayout⟩
    · exact .none
    · obtain rfl | rfl | ⟨sign, hour, minute, hsign, hhour, hminute, rfl⟩ := skipZone?_eq_some_iff.mp hskip
      · exact .utc
      · exact absurd hlayout (by decide)
      · rw [List.append_nil]
        have hmark := mem_of_dropPlaces?_zoneLayouts hlayout
        simp only [List.mem_cons, List.not_mem_nil, or_false] at hsign
        refine .offset ?_ hhour hminute
        rcases hsign with rfl | rfl | rfl
        · exact List.mem_cons_self
        · exact List.mem_cons_of_mem _ List.mem_cons_self
        · exact absurd hmark (by decide)

/-! ## What formats accept -/

/-- Items that read no number, and what they leave of a text. -/
def Skips (items : List Item) (skip : List Char → Option (List Char)) : Prop :=
  ∀ (r : Reading) (cs : List Char), readItems? items (r, cs) = (skip cs).map fun rest => (r, rest)

theorem skips_nil : Skips [] some :=
  fun _ _ => rfl

theorem skips_fraction : Skips [.fraction] skipFraction? := by
  intro r cs
  rw [readItems?_cons]
  show ((skipFraction? cs).map fun rest => (r, rest)).bind some = _
  cases skipFraction? cs <;> rfl

theorem skips_fraction_zone : Skips [.fraction, .zone] fun cs => (skipFraction? cs).bind skipZone? := by
  intro r cs
  rw [readItems?_cons]
  show ((skipFraction? cs).map fun rest => (r, rest)).bind (readItems? [.zone]) =
    ((skipFraction? cs).bind skipZone?).map fun rest => (r, rest)
  cases skipFraction? cs with
  | none => rfl
  | some rest =>
    show ((skipZone? rest).map fun rest => (r, rest)).bind some = (skipZone? rest).map fun rest => (r, rest)
    cases skipZone? rest <;> rfl

/-- The format of a date accepts the days of the calendar. -/
theorem readsAsDay_dayText {year month day : Nat} (h : FitsDay year month day) :
    readsAsDay dateFormat (dayText year month day) = Text.isDay year month day := by
  have hread := readItems?_dateItems readsNumbers_loose h (fun _ => 0) []
  rw [List.append_nil] at hread
  unfold readsAsDay readFormat? dateFormat
  rw [hread]
  exact isDay_setDay _ h

/-- White space before a time is skipped. -/
theorem read?_blanks_clockText (hour minute second : Nat) (rest : List Char) (r : Reading) :
    Item.blanks.read? (r, ' ' :: (clockText hour minute second ++ rest)) =
      some (r, clockText hour minute second ++ rest) := by
  obtain ⟨d, ds, hds, hd⟩ := exists_cons_paddedDigits Nat.two_pos hour
  unfold clockText joined
  rw [hds]
  show some (r, List.dropWhile _ _) = _
  rw [List.dropWhile_cons_of_pos (by decide), List.cons_append, List.cons_append,
    List.dropWhile_cons_of_neg (by simp [isBlank_eq_false hd])]

section Times

variable {year month day hour minute second : Nat} (hfitsDay : FitsDay year month day)
  (hfitsClock : FitsClock hour minute second) {number : Part → Item} {sepItem : Item} {sep : Char}
  {tail : List Item} {skip : List Char → Option (List Char)} {rest : List Char}

include hfitsDay

/-- A format that does not read the separator of a day and a time accepts neither. -/
theorem readsAsTime_eq_false (hnumber : ReadsNumbers number)
    (hsep : ∀ r, (sepItem.read? (r, sep :: rest)).bind (readItems? (timeItems number ++ tail)) = none) :
    readsAsTime (dateItems number ++ sepItem :: timeItems number ++ tail)
      (dayText year month day ++ sep :: rest) = false := by
  unfold readsAsTime readFormat?
  rw [List.append_assoc, readItems?_append, readItems?_dateItems hnumber hfitsDay, Option.bind_some,
    List.cons_append, readItems?_cons, hsep]
  rfl

include hfitsClock

/-- A format that reads the separator accepts a day and a time that exist, if it leaves nothing of what
follows. -/
theorem readsAsTime_iff (hnumber : ReadsNumbers number) (htail : Skips tail skip)
    (hsep : ∀ r, sepItem.read? (r, sep :: (clockText hour minute second ++ rest)) =
      some (r, clockText hour minute second ++ rest)) :
    readsAsTime (dateItems number ++ sepItem :: timeItems number ++ tail)
        (dayText year month day ++ sep :: (clockText hour minute second ++ rest)) = true ↔
      (Text.isDay year month day = true ∧ IsClock hour minute second) ∧ skip rest = some [] := by
  unfold readsAsTime readFormat?
  rw [List.append_assoc, readItems?_append, readItems?_dateItems hnumber hfitsDay, Option.bind_some,
    List.cons_append, readItems?_cons, hsep, Option.bind_some, readItems?_append,
    readItems?_timeItems hnumber hfitsClock, Option.bind_some, htail]
  cases skip rest with
  | none => simp
  | some rest' =>
    cases rest' with
    | cons c cs => simp
    | nil =>
      simp only [Option.map_some, Option.any_some, Bool.and_eq_true]
      rw [isDay_setClock, isDay_setDay _ hfitsDay, isTime_setClock_iff, and_true]

/-- Of two formats without a zone that differ in the separator, one reads the separator of the text. -/
theorem readsAsTime_loose_iff (hsep : sep ∈ ['T', ' ']) (rest : List Char) (htail : Skips tail skip) :
    (readsAsTime (dateItems .loose ++ .mark ['T'] :: timeItems .loose ++ tail)
          (dayText year month day ++ sep :: (clockText hour minute second ++ rest)) = true ∨
        readsAsTime (dateItems .loose ++ .blanks :: timeItems .loose ++ tail)
          (dayText year month day ++ sep :: (clockText hour minute second ++ rest)) = true) ↔
      (Text.isDay year month day = true ∧ IsClock hour minute second) ∧ skip rest = some [] := by
  have hseps : sep = 'T' ∨ sep = ' ' := by simpa using hsep
  rcases hseps with rfl | rfl
  · -- white space may be missing, but an hour does not start with the `T`
    rw [or_iff_left (Bool.eq_false_iff.mp
      (readsAsTime_eq_false hfitsDay readsNumbers_loose fun r => rfl))]
    exact readsAsTime_iff hfitsDay hfitsClock readsNumbers_loose htail fun r => rfl
  · rw [or_iff_right (Bool.eq_false_iff.mp
      (readsAsTime_eq_false hfitsDay readsNumbers_loose fun r => rfl))]
    exact readsAsTime_iff hfitsDay hfitsClock readsNumbers_loose htail
      (read?_blanks_clockText hour minute second rest)

/-- **What the formats accept.**  Some format of a date and a time accepts a day and a time that exist, if a
fraction and a zone follow, or one of them, or nothing. -/
theorem any_readsAsTime_iff (hsep : sep ∈ ['T', ' ']) (rest : List Char) :
    (timeFormats.any fun format => readsAsTime format
        (dayText year month day ++ sep :: (clockText hour minute second ++ rest))) = true ↔
      (Text.isDay year month day = true ∧ IsClock hour minute second) ∧
        ∃ zone, skipFraction? rest = some zone ∧ SkipsZone zone := by
  have hmarks : ∀ sep ∈ ['T', ' '], sep ∈ ['T', 't', ' '] := by simp
  have hzoned := readsAsTime_iff hfitsDay hfitsClock readsNumbers_exact
    skips_fraction_zone fun r => read?_mark (hmarks sep hsep) r (clockText hour minute second ++ rest)
  have hplain := readsAsTime_loose_iff hfitsDay hfitsClock hsep rest skips_nil
  have hfraction := readsAsTime_loose_iff hfitsDay hfitsClock hsep rest skips_fraction
  rw [List.append_nil, List.append_nil] at hplain
  have hrest : ((skipFraction? rest).bind skipZone? = some [] ∨ some rest = some [] ∨ skipFraction? rest = some []) ↔
      ∃ zone, skipFraction? rest = some zone ∧ SkipsZone zone := by
    constructor
    · rintro (h | h | h)
      · obtain ⟨zone, hskip, hzone⟩ := Option.bind_eq_some_iff.mp h
        exact ⟨zone, hskip, .inr hzone⟩
      · exact ⟨[], by rw [Option.some.inj h]; rfl, .inl rfl⟩
      · exact ⟨[], h, .inl rfl⟩
    · rintro ⟨zone, hskip, rfl | hzone⟩
      · exact .inr (.inr hskip)
      · exact .inl (Option.bind_eq_some_iff.mpr ⟨zone, hskip, hzone⟩)
  rw [← hrest, and_or_left, and_or_left, ← hzoned, ← hplain, ← hfraction]
  unfold timeFormats localFormats zonedFormat
  simp only [List.any_cons, List.any_nil, Bool.or_false, Bool.or_eq_true]
  constructor
  · rintro (h | h | h | h | h)
    exacts [.inl h, .inr (.inl (.inl h)), .inr (.inr (.inl h)), .inr (.inl (.inr h)), .inr (.inr (.inr h))]
  · rintro (h | (h | h) | h | h)
    exacts [.inl h, .inr (.inl h), .inr (.inr (.inr (.inl h))), .inr (.inr (.inl h)),
      .inr (.inr (.inr (.inr h)))]

end Times

/-! ## Dates -/

/-- The characters of a text that a format accepts. -/
theorem isPlain_of_any_readFormat? {format : List Item} (hformat : format ∈ dateFormat :: timeFormats)
    {p : Reading → Bool} {cs : List Char} (h : (readFormat? format cs).any p = true) :
    ∀ c ∈ cs, isPlain c = true := by
  cases hread : readFormat? format cs with
  | none =>
    rw [hread] at h
    cases h
  | some r => exact isPlain_of_readFormat? hformat hread

/-- Three texts with the layout of numbers are numbers, if a format may take them. -/
theorem exists_joined_paddedDigits {mark : Char} {count : Nat} {x y z : List Char} (hx : AreDecimals count x)
    (hy : AreDecimals 2 y) (hz : AreDecimals 2 z) (hplain : ∀ c ∈ joined mark x y z, isPlain c = true) :
    ∃ a < 10 ^ count, ∃ b < 10 ^ 2, ∃ c < 10 ^ 2,
      joined mark x y z = joined mark (paddedDigits count a) (paddedDigits 2 b) (paddedDigits 2 c) := by
  simp only [joined, List.forall_mem_append, List.forall_mem_cons] at hplain
  obtain ⟨hplainx, -, hplainy, -, hplainz⟩ := hplain
  obtain ⟨a, ha, rfl⟩ := exists_paddedDigits hx hplainx
  obtain ⟨b, hb, rfl⟩ := exists_paddedDigits hy hplainy
  obtain ⟨c, hc, rfl⟩ := exists_paddedDigits hz hplainz
  exact ⟨a, ha, b, hb, c, hc, rfl⟩

/-- The text of a day has the layout of one. -/
theorem dropPlaces?_dateLayout_dayText (year month day : Nat) (rest : List Char) :
    dropPlaces? dateLayout (dayText year month day ++ rest) = some rest :=
  dropPlaces?_dateLayout_eq_some_iff.mpr ⟨_, _, _, rfl, areDecimals_paddedDigits 4 year,
    areDecimals_paddedDigits 2 month, areDecimals_paddedDigits 2 day⟩

/-- So has the text of a time. -/
theorem dropPlaces?_timeLayout_clockText {sep : Char} (hsep : sep ∈ ['T', ' ']) (hour minute second : Nat)
    (rest : List Char) :
    dropPlaces? timeLayout (sep :: (clockText hour minute second ++ rest)) = some rest :=
  dropPlaces?_timeLayout_eq_some_iff.mpr ⟨sep, hsep, _, _, _, rfl, areDecimals_paddedDigits 2 hour,
    areDecimals_paddedDigits 2 minute, areDecimals_paddedDigits 2 second⟩

/-- **Days.**  A text has the layout of a date and is read as a day exactly if it is the text of one. -/
theorem hasDateLayout_and_readsAsDay_iff {cs : List Char} :
    hasDateLayout cs = true ∧ readsAsDay dateFormat cs = true ↔
      ∃ year month day, year ≤ 9999 ∧ Text.isDay year month day = true ∧ cs = dayText year month day := by
  constructor
  · rintro ⟨hlayout, hread⟩
    have hplain := isPlain_of_any_readFormat? List.mem_cons_self hread
    obtain ⟨y, m, d, rfl, hy, hm, hd⟩ := dropPlaces?_dateLayout_eq_some_iff.mp (beq_iff_eq.mp hlayout)
    rw [List.append_nil] at hread hplain ⊢
    obtain ⟨year, hyear, month, hmonth, day, hday, htext⟩ := exists_joined_paddedDigits hy hm hd hplain
    rw [htext] at hread ⊢
    exact ⟨year, month, day, Nat.le_of_lt_succ hyear,
      (readsAsDay_dayText ⟨hyear, hmonth, hday⟩).symm.trans hread, rfl⟩
  · rintro ⟨year, month, day, hyear, hday, rfl⟩
    have hdrop := dropPlaces?_dateLayout_dayText year month day []
    rw [List.append_nil] at hdrop
    rw [readsAsDay_dayText (fitsDay_of_isDay hyear hday)]
    exact ⟨beq_iff_eq.mpr hdrop, hday⟩

/-- **Days and times.**  A text has the layout of a date and a time and is read as a day and a time exactly
if it is the text of both, with a fraction and a zone or without. -/
theorem hasDateTimeLayout_and_any_readsAsTime_iff {cs : List Char} :
    hasDateTimeLayout cs = true ∧ (timeFormats.any (readsAsTime · cs)) = true ↔
      ∃ year month day time, year ≤ 9999 ∧ Text.isDay year month day = true ∧ IsTime time ∧ time ≠ [] ∧
        cs = dayText year month day ++ time := by
  constructor
  · rintro ⟨hlayout, hread⟩
    obtain ⟨format, hmem, hformat⟩ := List.any_eq_true.mp hread
    have hplain := isPlain_of_any_readFormat? (List.mem_cons_of_mem _ hmem) hformat
    unfold hasDateTimeLayout at hlayout
    split at hlayout
    case h_2 => cases hlayout
    case h_1 rest hdrop =>
      rw [dropPlaces?_append] at hdrop
      obtain ⟨cs', hdate, htime⟩ := Option.bind_eq_some_iff.mp hdrop
      obtain ⟨y, m, d, rfl, hy, hm, hd⟩ := dropPlaces?_dateLayout_eq_some_iff.mp hdate
      obtain ⟨sep, hsep, h, mi, s, rfl, hh, hmi, hs⟩ := dropPlaces?_timeLayout_eq_some_iff.mp htime
      rw [List.forall_mem_append, List.forall_mem_cons, List.forall_mem_append] at hplain
      obtain ⟨hplainDay, -, hplainClock, -⟩ := hplain
      obtain ⟨year, hyear, month, hmonth, day, hday, hdayText⟩ := exists_joined_paddedDigits hy hm hd hplainDay
      obtain ⟨hour, hhour, minute, hminute, second, hsecond, hclockText⟩ :=
        exists_joined_paddedDigits hh hmi hs hplainClock
      rw [hdayText, hclockText] at hread ⊢
      obtain ⟨⟨hday, hclock⟩, zone, hskip, hzone⟩ :=
        (any_readsAsTime_iff ⟨hyear, hmonth, hday⟩ ⟨hhour, hminute, hsecond⟩ hsep rest).mp hread
      -- the format leaves the zone, and the layout has the last word on it
      obtain ⟨fraction, rfl, hfraction⟩ := exists_of_skipFraction? hskip
      rw [dropFraction_append hfraction hzone.endsFraction] at hlayout
      exact ⟨year, month, day, _, Nat.le_of_lt_succ hyear, hday,
        .clock hsep hclock hfraction (isZone_iff.mpr ⟨hzone, hlayout⟩), List.cons_ne_nil _ _, rfl⟩
  · rintro ⟨year, month, day, time, hyear, hday, htime, hne, rfl⟩
    cases htime with
    | none => exact absurd rfl hne
    | @clock sep hour minute second fraction zone hsep hclock hfraction hzone =>
      obtain ⟨hskip, hlayout⟩ := isZone_iff.mp hzone
      have hdrop : dropPlaces? (dateLayout ++ timeLayout)
          (dayText year month day ++ sep :: (clockText hour minute second ++ (fraction ++ zone))) =
          some (fraction ++ zone) := by
        rw [dropPlaces?_append, dropPlaces?_dateLayout_dayText, Option.bind_some,
          dropPlaces?_timeLayout_clockText hsep]
      constructor
      · unfold hasDateTimeLayout
        rw [hdrop]
        show (zoneLayouts.any fun layout => dropPlaces? layout (dropFraction (fraction ++ zone)) == some []) = true
        rw [dropFraction_append hfraction hskip.endsFraction]
        exact hlayout
      · exact (any_readsAsTime_iff (fitsDay_of_isDay hyear hday) hclock.fits hsep _).mpr
          ⟨⟨hday, hclock⟩, zone, skipFraction?_append hfraction hskip.endsFraction, hskip⟩

/-- A day with a time has not the layout of a day alone. -/
theorem hasDateLayout_append_eq_false (year month day : Nat) {time : List Char} (h : time ≠ []) :
    hasDateLayout (dayText year month day ++ time) = false := by
  unfold hasDateLayout
  rw [dropPlaces?_dateLayout_dayText]
  exact beq_eq_false_iff_ne.mpr fun heq => h (Option.some.inj heq)

/-- **Dates.**  A text is date-like exactly if, without the white space at its ends, it is a date: a day of
the calendar, alone or with a time, and that perhaps with a fraction and a zone. -/
theorem isDateLike_iff_isDate (s : String) : isDateLike s = true ↔ IsDate (Text.trim s.toList) := by
  unfold isDateLike isDateTime
  generalize Text.trim s.toList = cs
  constructor
  · intro h
    split at h
    case isTrue hlayout =>
      obtain ⟨year, month, day, hyear, hday, rfl⟩ := hasDateLayout_and_readsAsDay_iff.mp ⟨hlayout, h⟩
      rw [← List.append_nil (dayText year month day)]
      exact .day hyear hday .none
    case isFalse =>
      obtain ⟨year, month, day, time, hyear, hday, htime, -, rfl⟩ :=
        hasDateTimeLayout_and_any_readsAsTime_iff.mp (Bool.and_eq_true_iff.mp h)
      exact .day hyear hday htime
  · rintro ⟨hyear, hday, htime⟩
    rename_i year month day time
    by_cases hne : time = []
    · subst hne
      rw [List.append_nil]
      obtain ⟨hlayout, hread⟩ := hasDateLayout_and_readsAsDay_iff.mpr ⟨year, month, day, hyear, hday, rfl⟩
      rw [if_pos hlayout]
      exact hread
    · rw [if_neg (Bool.eq_false_iff.mp (hasDateLayout_append_eq_false year month day hne))]
      exact Bool.and_eq_true_iff.mpr (hasDateTimeLayout_and_any_readsAsTime_iff.mpr
        ⟨year, month, day, time, hyear, hday, htime, hne, rfl⟩)

example : isDateLike " 2024-02-29T23:59:60.5-03:30" = true := by decide

example : isDateLike "2023-02-29" = false := by decide

/-! ## Characters of dates -/

/-- The characters of a text are white space or stay when it is trimmed. -/
theorem isBlank_or_mem_trim {c : Char} {cs : List Char} (h : c ∈ cs) :
    Text.isBlank c = true ∨ c ∈ Text.trim cs := by
  have hdrop : ∀ {c : Char} {cs : List Char}, c ∈ cs → Text.isBlank c = true ∨ c ∈ cs.dropWhile Text.isBlank := by
    intro c cs h
    rw [← List.takeWhile_append_dropWhile (p := Text.isBlank) (l := cs)] at h
    exact (List.mem_append.mp h).imp List.mem_takeWhile_imp id
  rcases hdrop h with hblank | hmem
  · exact .inl hblank
  · exact (hdrop (List.mem_reverse.mpr hmem)).imp id List.mem_reverse.mpr

/-- A date-like text is made of the characters that a format may take. -/
theorem isPlain_of_isDateLike {s : String} (h : isDateLike s = true) : ∀ c ∈ s.toList, isPlain c = true := by
  have htrim : ∀ c ∈ Text.trim s.toList, isPlain c = true := by
    unfold isDateLike isDateTime at h
    split at h
    · exact isPlain_of_any_readFormat? List.mem_cons_self h
    · have hread : timeFormats.any (readsAsTime · (Text.trim s.toList)) = true := (Bool.and_eq_true_iff.mp h).2
      obtain ⟨format, hmem, hformat⟩ := List.any_eq_true.mp hread
      exact isPlain_of_any_readFormat? (List.mem_cons_of_mem _ hmem) hformat
  intro c hc
  rcases isBlank_or_mem_trim hc with hblank | hmem
  · simp [isPlain, hblank]
  · exact htrim c hmem

end ContentModel.Recognition

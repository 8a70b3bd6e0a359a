import Mathlib
import ContentModel.Proofs.Recognition.Dates
import ContentModel.Recognition.Markup

/-
# Which texts have markup

The scan for a tag tries each `<` of a text and each name after it, and takes the first `>` that follows.  It
finds a tag exactly if the text has one anywhere; so a longer text keeps the markup of a shorter one.

Main statement: `hasMarkup_exact`.
-/

namespace ContentModel.Recognition

/-! ## Tags -/

/-- A character that stands for a small letter or a digit when case does not count.  Of the characters that
are not ASCII, only the long s and the Kelvin sign do. -/
inductive Folds : Char → Char → Prop
  | self (n : Char) : Folds n n
  | capital (n : Char) : Folds n.toUpper n
  | longS : Folds '\u017f' 's'
  | kelvin : Folds '\u212a' 'k'

/-- The tag of a known element: `<`, an optional slash, the name, nothing that would make it longer, and
whatever has no `>` up to the next one. -/
inductive IsTag : List Char → Prop
  | tag {slash name rest : List Char} {element : String} (hslash : slash = [] ∨ slash = ['/'])
      (helement : element ∈ elementNames) (hname : List.Forall₂ Folds name element.toList)
      (hrest : '>' ∉ rest) (hend : ∀ c ∈ (rest ++ ['>']).head?, Text.isWord c = false) :
      IsTag ('<' :: (slash ++ name ++ rest ++ ['>']))

/-! ## Names -/

/-- The characters of names. -/
def isNameChar (c : Char) : Bool := c.isLower || c.isDigit

/-- The names of elements are made of them, and none is empty. -/
theorem isNameChar_of_mem {element : String} (h : element ∈ elementNames) :
    ∀ n ∈ element.toList, isNameChar n = true := by
  have hall : (elementNames.all fun element => element.toList.all isNameChar) = true := by decide
  exact List.all_eq_true.mp (List.all_eq_true.mp hall element h)

theorem toList_ne_nil_of_mem {element : String} (h : element ∈ elementNames) : element.toList ≠ [] := by
  have hall : ∀ element ∈ elementNames, element.toList ≠ [] := by decide
  exact hall element h

theorem toLower_of_isNameChar {n : Char} (hn : isNameChar n = true) : n.toLower = n := by
  refine Char.toLower_eq_of_not_isUpper ?_
  rcases Bool.or_eq_true_iff.mp hn with hlower | hdigit
  · exact Char.not_isUpper_of_isLower hlower
  · obtain ⟨-, hhigh⟩ := Char.isDigit_iff_toNat.mp hdigit
    simp only [Char.isUpper, UInt32.le_iff_toNat_le, ge_iff_le, decide_eq_true_eq]
    have hval : n.val.toNat = n.toNat := rfl
    have hnine : '9'.toNat = 57 := rfl
    have hcapital : 'A'.val.toNat = 65 := rfl
    omega

/-- A character whose small letter may stand in a name is folded to it. -/
theorem foldCase_of_isNameChar {c n : Char} (hn : isNameChar n = true) (h : c.toLower = n) : foldCase c = n := by
  unfold foldCase
  split_ifs with hlong hkelvin
  · subst hlong
    exact absurd (h ▸ hn) (by decide)
  · subst hkelvin
    exact absurd (h ▸ hn) (by decide)
  · exact h

/-- **Folding.**  A character folds to such a character exactly if it stands for it. -/
theorem foldCase_eq_iff {c n : Char} (hn : isNameChar n = true) : foldCase c = n ↔ Folds c n := by
  constructor
  · intro h
    unfold foldCase at h
    split_ifs at h with hlong hkelvin
    · exact hlong ▸ h ▸ .longS
    · exact hkelvin ▸ h ▸ .kelvin
    · by_cases hupper : c.isUpper = true
      · have hc := calc c
          _ = c.toUpper := (Char.toUpper_eq_of_not_isLower (Char.not_isLower_of_isUpper hupper)).symm
          _ = c.toLower.toUpper := (Char.toUpper_toLower_eq_toUpper c).symm
          _ = n.toUpper := by rw [h]
        exact hc ▸ .capital n
      · rw [Char.toLower_eq_of_not_isUpper hupper] at h
        exact h ▸ .self c
  · rintro (_ | _ | _ | _)
    · exact foldCase_of_isNameChar hn (toLower_of_isNameChar hn)
    · exact foldCase_of_isNameChar hn ((Char.toLower_toUpper_eq_toLower n).trans (toLower_of_isNameChar hn))
    · rfl
    · rfl

/-- A name is dropped from a text that starts with a text standing for it. -/
theorem dropName?_eq_some_iff {ns cs rest : List Char} (hns : ∀ n ∈ ns, isNameChar n = true) :
    dropName? ns cs = some rest ↔ ∃ name, cs = name ++ rest ∧ List.Forall₂ Folds name ns := by
  induction ns generalizing cs with
  | nil =>
    rw [dropName?]
    constructor
    · intro h
      exact ⟨[], Option.some.inj h, .nil⟩
    · rintro ⟨name, rfl, hname⟩
      rw [List.forall₂_nil_right_iff.mp hname]
      rfl
  | cons n ns ih =>
    rw [List.forall_mem_cons] at hns
    cases cs with
    | nil =>
      rw [dropName?]
      constructor
      · intro h
        cases h
      · rintro ⟨name, hcs, hname⟩
        rw [(List.append_eq_nil_iff.mp hcs.symm).1] at hname
        cases hname
    | cons c cs =>
      rw [dropName?, Option.ite_none_right_eq_some, foldCase_eq_iff hns.1, ih hns.2]
      constructor
      · rintro ⟨hc, name, rfl, hname⟩
        exact ⟨c :: name, rfl, .cons hc hname⟩
      · rintro ⟨_, hcs, hname⟩
        cases hname with
        | @cons c' _ name _ hc hname =>
          obtain ⟨rfl, rfl⟩ := List.cons.inj hcs
          exact ⟨hc, name, rfl, hname⟩

/-! ## Ends of tags -/

/-- After a name, a tag is closed by the first `>`. -/
theorem closesTag_iff {cs : List Char} :
    closesTag cs = true ↔ ∃ rest after, cs = rest ++ '>' :: after ∧ '>' ∉ rest ∧
      ∀ c ∈ (rest ++ ['>']).head?, Text.isWord c = false := by
  have hhead : ∀ rest after : List Char, (rest ++ '>' :: after).head? = (rest ++ ['>']).head? := by
    intro rest after
    cases rest <;> rfl
  cases cs with
  | nil => simp [closesTag]
  | cons c cs =>
    rw [closesTag, Bool.and_eq_true, Bool.not_eq_true', List.contains_iff_mem]
    constructor
    · rintro ⟨hc, hmem⟩
      -- the tag ends at the first `>`, so that none stands before it
      obtain ⟨rest, after, hcs, hrest⟩ := List.eq_append_cons_of_mem hmem
      refine ⟨rest, after, hcs, hrest, fun d hd => ?_⟩
      rw [← hhead rest after, ← hcs] at hd
      exact Option.some.inj hd ▸ hc
    · rintro ⟨rest, after, hcs, -, hend⟩
      rw [← hhead rest after, ← hcs] at hend
      exact ⟨hend c rfl, hcs ▸ List.mem_append_right _ List.mem_cons_self⟩

/-! ## Starts of tags -/

/-- A name does not start with a slash. -/
theorem head?_name_ne_slash {element : String} (helement : element ∈ elementNames) {name : List Char}
    (hname : List.Forall₂ Folds name element.toList) (cs : List Char) : (name ++ cs).head? ≠ some '/' := by
  have hchars := isNameChar_of_mem helement
  have hne := toList_ne_nil_of_mem helement
  generalize element.toList = ns at *
  cases hname with
  | nil => exact absurd rfl hne
  | @cons c n _ _ hc _ =>
    intro hslash
    obtain rfl : c = '/' := Option.some.inj hslash
    have hn := hchars n List.mem_cons_self
    rw [← (foldCase_eq_iff hn).mpr hc] at hn
    exact absurd hn (by decide)

/-- After a `<`, a text goes on as a tag exactly if it starts with one there. -/
theorem continuesTag_iff {cs : List Char} :
    continuesTag cs = true ↔ ∃ tag after, '<' :: cs = tag ++ after ∧ IsTag tag := by
  constructor
  · intro h
    obtain ⟨element, helement, h⟩ := List.any_eq_true.mp h
    split at h
    case h_2 => cases h
    case h_1 rest' hdrop =>
      obtain ⟨name, hcs, hname⟩ := (dropName?_eq_some_iff (isNameChar_of_mem helement)).mp hdrop
      obtain ⟨rest, after, rfl, hrest, hend⟩ := closesTag_iff.mp h
      have hslash : ∃ slash, (slash = [] ∨ slash = ['/']) ∧ cs = slash ++ (name ++ (rest ++ '>' :: after)) := by
        rw [← hcs]
        split
        · rename_i hhead
          cases cs with
          | nil => cases hhead
          | cons c cs =>
            obtain rfl := Option.some.inj hhead
            exact ⟨['/'], .inr rfl, rfl⟩
        · exact ⟨[], .inl rfl, rfl⟩
      obtain ⟨slash, hslash, rfl⟩ := hslash
      exact ⟨_, after, by simp, .tag hslash helement hname hrest hend⟩
  · rintro ⟨tag, after, hcs, htag⟩
    cases htag with
    | @tag slash name rest element hslash helement hname hrest hend =>
      have hhead := head?_name_ne_slash helement hname (rest ++ '>' :: after)
      -- the scan skips a slash wherever it stands, so a name must not start with one
      have hskip : (if cs.head? = some '/' then cs.tail else cs) = name ++ (rest ++ '>' :: after) := by
        obtain rfl : cs = slash ++ (name ++ (rest ++ '>' :: after)) := by simpa using hcs
        rcases hslash with rfl | rfl
        · exact if_neg hhead
        · rfl
      refine List.any_eq_true.mpr ⟨element, helement, ?_⟩
      rw [hskip, (dropName?_eq_some_iff (isNameChar_of_mem helement)).mpr ⟨name, rfl, hname⟩]
      exact closesTag_iff.mpr ⟨rest, after, rfl, hrest, hend⟩

/-! ## Markup -/

/-- **The scan.**  It finds a tag exactly if the text goes on as one after some `<`. -/
theorem hasTag_iff {cs : List Char} :
    hasTag cs = true ↔ ∃ before after, cs = before ++ '<' :: after ∧ continuesTag after = true := by
  induction cs with
  | nil => simp [hasTag]
  | cons c cs ih =>
    rw [hasTag, Bool.or_eq_true, Bool.and_eq_true, beq_iff_eq, ih]
    constructor
    · rintro (⟨rfl, hcontinues⟩ | ⟨before, after, rfl, hcontinues⟩)
      · exact ⟨[], cs, rfl, hcontinues⟩
      · exact ⟨c :: before, after, rfl, hcontinues⟩
    · rintro ⟨before, after, hcs, hcontinues⟩
      cases before with
      | nil =>
        obtain ⟨rfl, rfl⟩ := List.cons.inj hcs
        exact .inl ⟨rfl, hcontinues⟩
      | cons b before =>
        obtain ⟨rfl, rfl⟩ := List.cons.inj hcs
        exact .inr ⟨before, after, rfl, hcontinues⟩

/-- A text has markup exactly if a tag stands in it. -/
theorem hasMarkup_iff {s : String} :
    hasMarkup s = true ↔ ∃ before tag after, s.toList = before ++ tag ++ after ∧ IsTag tag := by
  unfold hasMarkup
  rw [hasTag_iff]
  constructor
  · rintro ⟨before, after, hs, hcontinues⟩
    obtain ⟨tag, after', hsplit, htag⟩ := continuesTag_iff.mp hcontinues
    exact ⟨before, tag, after', by rw [hs, hsplit, List.append_assoc], htag⟩
  · rintro ⟨before, tag, after, hs, htag⟩
    obtain ⟨cs, rfl⟩ : ∃ cs, tag = '<' :: cs := by
      cases htag
      exact ⟨_, rfl⟩
    refine ⟨before, cs ++ after, by rw [hs, List.append_assoc]; rfl, ?_⟩
    exact continuesTag_iff.mpr ⟨'<' :: cs, after, rfl, htag⟩

/-- **Markup.**  A text has markup exactly if a tag stands in it.  So a text around another one keeps the
other's markup, and a date-like text, in which no `<` stands, has none. -/
theorem hasMarkup_exact :
    (∀ s : String, hasMarkup s = true ↔ ∃ before tag after, s.toList = before ++ tag ++ after ∧ IsTag tag) ∧
      (∀ x s y : String, hasMarkup s = true → hasMarkup (x ++ s ++ y) = true) ∧
      ∀ s : String, isDateLike s = true → hasMarkup s = false := by
  refine ⟨fun s => hasMarkup_iff, fun x s y h => ?_, fun s hdate => ?_⟩
  · obtain ⟨before, tag, after, hs, htag⟩ := hasMarkup_iff.mp h
    refine hasMarkup_iff.mpr ⟨x.toList ++ before, tag, after ++ y.toList, ?_, htag⟩
    rw [String.toList_append, String.toList_append, hs]
    simp only [List.append_assoc]
  · by_contra hmarkup
    obtain ⟨before, after, hs, -⟩ := hasTag_iff.mp (Bool.eq_true_of_not_eq_false hmarkup)
    have hplain := isPlain_of_isDateLike hdate '<' (hs ▸ List.mem_append_right _ List.mem_cons_self)
    exact absurd hplain (by decide)

theorem hasMarkup_exact_break :
    hasMarkup "<BR/>" = true ∧ hasMarkup ("1 <" ++ "<BR/>" ++ "> 0") = true ∧
      isDateLike "2024-02-29" = true ∧ hasMarkup "2024-02-29" = false := by
  have htag : IsTag ('<' :: ([] ++ ['B', 'R'] ++ ['/'] ++ ['>'])) := by
    have helement : "br" ∈ elementNames := by simp [elementNames]
    have hslash : Text.isWord '/' = false := by decide
    refine .tag (.inl rfl) helement (.cons (.capital 'b') (.cons (.capital 'r') .nil)) (by decide) ?_
    intro c hc
    exact Option.some.inj hc ▸ hslash
  have hbreak := (hasMarkup_exact.1 "<BR/>").mpr ⟨[], _, [], by decide, htag⟩
  have hdate : isDateLike "2024-02-29" = true := by decide
  exact ⟨hbreak, hasMarkup_exact.2.1 "1 <" "<BR/>" "> 0" hbreak, hdate, hasMarkup_exact.2.2 _ hdate⟩

end ContentModel.Recognition

import Mathlib.Data.List.Infix
import ContentModel.Json.Printer

/-
# Strings in JSON text

No character is written as the start of what is written for another one, and none is written as a text
that starts with a quote.  So the text of a string in quotes shows where the string ends and what it is, whatever
follows.

Main statements: `quote_append_inj` (strings) and `Value.eq_of_pretty_object` (a string in an object).
-/

namespace ContentModel.Json

/-! ## Characters -/

/-- The characters that are escaped: control characters, the quote and the backslash. -/
def escaped : List Char :=
  (List.range 0x20).map Char.ofNat ++ ['"', '\\']

/-- Any other character is written as it is. -/
theorem escape_of_notMem {c : Char} (h : c ∉ escaped) : escape c = [c] := by
  have hne : ∀ d ∈ escaped, c = d → False := fun d hd heq => h (heq ▸ hd)
  have hcontrol : ¬ c.toNat < 0x20 := fun hlt =>
    h (List.mem_append_left _ (List.mem_map.mpr ⟨c.toNat, List.mem_range.mpr hlt, Char.ofNat_toNat c⟩))
  rw [escape, if_neg hcontrol]
  all_goals exact hne _ (by decide)

/-- An escape starts with a backslash, and none is the start of another. -/
theorem escape_of_mem :
    ∀ c ∈ escaped, (escape c).head? = some '\\' ∧
      ∀ c' ∈ escaped, escape c <+: escape c' → c = c' := by
  have hall : escaped.all (fun c => decide ((escape c).head? = some '\\') &&
      escaped.all fun c' => !(escape c).isPrefixOf (escape c') || decide (c = c')) = true := by
    decide +kernel
  intro c hc
  obtain ⟨hhead, hothers⟩ := (Bool.and_eq_true _ _).mp (List.all_eq_true.mp hall c hc)
  refine ⟨of_decide_eq_true hhead, fun c' hc' hbegins => ?_⟩
  have h := List.all_eq_true.mp hothers c' hc'
  rw [List.isPrefixOf_iff_prefix.mpr hbegins] at h
  simpa using h

/-- What is written for a character starts with a backslash exactly if the character is escaped, and
never with a quote. -/
theorem escape_start (c : Char) :
    ∃ a as, escape c = a :: as ∧ a ≠ '"' ∧ (a = '\\' ↔ c ∈ escaped) := by
  by_cases hc : c ∈ escaped
  · obtain ⟨as, heq⟩ := List.head?_eq_some_iff.mp (escape_of_mem c hc).1
    exact ⟨'\\', as, heq, by decide, by simp [hc]⟩
  · refine ⟨c, [], escape_of_notMem hc, ?_, ?_⟩
    · rintro rfl
      exact hc (by decide)
    · refine iff_of_false ?_ hc
      rintro rfl
      exact hc (by decide)

/-- An escaped character shows what it is, whatever follows. -/
theorem escape_append_inj {c c' : Char} {rest rest' : List Char}
    (h : escape c ++ rest = escape c' ++ rest') : c = c' ∧ rest = rest' := by
  have hsame : c = c' := by
    obtain ⟨a, as, ha, -, hescaped⟩ := escape_start c
    obtain ⟨a', as', ha', -, hescaped'⟩ := escape_start c'
    have hstart : a = a' := by
      rw [ha, ha', List.cons_append, List.cons_append] at h
      exact (List.cons.inj h).1
    by_cases hc : c ∈ escaped
    · have hc' : c' ∈ escaped := by rwa [← hescaped', ← hstart, hescaped]
      -- One escape is the start of the other.
      have hbegins : escape c <+: escape c' ∨ escape c' <+: escape c :=
        List.prefix_or_prefix_of_prefix (List.prefix_append _ rest) (h ▸ List.prefix_append _ rest')
      rcases hbegins with hbegins | hbegins
      · exact (escape_of_mem c hc).2 c' hc' hbegins
      · exact ((escape_of_mem c' hc').2 c hc hbegins).symm
    · have hc' : c' ∉ escaped := by rwa [← hescaped', ← hstart, hescaped]
      rw [escape_of_notMem hc, List.cons.injEq] at ha
      rw [escape_of_notMem hc', List.cons.injEq] at ha'
      rw [ha.1, hstart, ha'.1]
  subst hsame
  exact ⟨rfl, List.append_cancel_left h⟩

/-! ## Strings -/

/-- **Strings.**  A string in quotes shows where it ends and what it is, whatever follows. -/
theorem quote_append_inj {s s' : String} {rest rest' : List Char}
    (h : quote s ++ rest = quote s' ++ rest') : s = s' ∧ rest = rest' := by
  have hchars : ∀ cs cs' : List Char, cs.flatMap escape ++ '"' :: rest =
      cs'.flatMap escape ++ '"' :: rest' → cs = cs' ∧ rest = rest' := by
    intro cs
    induction cs with
    | nil =>
      intro cs' h
      cases cs' with
      | nil => exact ⟨rfl, by simpa using h⟩
      | cons c' cs' =>
        obtain ⟨a, as, ha, hquote, -⟩ := escape_start c'
        rw [List.flatMap_cons, ha] at h
        exact absurd (List.cons.inj h).1.symm hquote
    | cons c cs ih =>
      intro cs' h
      cases cs' with
      | nil =>
        obtain ⟨a, as, ha, hquote, -⟩ := escape_start c
        rw [List.flatMap_cons, ha] at h
        exact absurd (List.cons.inj h).1 hquote
      | cons c' cs' =>
        rw [List.flatMap_cons, List.flatMap_cons, List.append_assoc, List.append_assoc] at h
        obtain ⟨rfl, hcs⟩ := escape_append_inj h
        obtain ⟨rfl, hrest⟩ := ih cs' hcs
        exact ⟨rfl, hrest⟩
  have hbody : s.toList.flatMap escape ++ '"' :: rest = s'.toList.flatMap escape ++ '"' :: rest' := by
    simpa [quote] using h
  obtain ⟨hlist, hrest⟩ := hchars s.toList s'.toList hbody
  exact ⟨String.toList_inj.mp hlist, hrest⟩

/-! ## Members -/

namespace Value

/-- The text of an object that starts with a member and with a string under a name, and goes on. -/
theorem exists_pretty_object (n : String) (v : Value) (name s : String) (m : String × Value)
    (ms : Members) :
    ∃ rest, (object ((n, v) :: (name, string s) :: m :: ms)).pretty.toList =
      '{' :: newline 1 ++ (quote n ++ ':' :: ' ' :: prettyChars 1 v ++ ',' :: newline 1) ++
        (quote name ++ [':', ' ']) ++ (quote s ++ rest) := by
  refine ⟨',' :: newline 1 ++ prettyMembers 1 (m :: ms) ++ newline 0 ++ ['}'], ?_⟩
  rw [pretty, String.toList_ofList, prettyChars, prettyMembers, prettyMembers, prettyChars]
  simp only [List.append_assoc, List.cons_append, List.nil_append]

/-- Objects that start with the same member show by their texts which string comes next. -/
theorem eq_of_pretty_object {n name s s' : String} {v : Value} {m m' : String × Value}
    {ms ms' : Members}
    (h : (object ((n, v) :: (name, string s) :: m :: ms)).pretty =
      (object ((n, v) :: (name, string s') :: m' :: ms')).pretty) : s = s' := by
  obtain ⟨rest, hrest⟩ := exists_pretty_object n v name s m ms
  obtain ⟨rest', hrest'⟩ := exists_pretty_object n v name s' m' ms'
  rw [h, hrest'] at hrest
  exact (quote_append_inj (List.append_cancel_left hrest)).1.symm

end Value

end ContentModel.Json

import ContentModel.Proofs.Json.Readable
import ContentModel.Proofs.Json.Strings

/-
# Reading printed values

A text is read character by character into tokens, and token by token into a tree.  The text of a value
that stands anywhere in a text takes the reader from the place of the value to the place behind it, with
the tree of the value put there, whatever follows.

Main statements: `readOn?_pretty` (the text of a value) and `Value.parse?_pretty` (a value reads back exactly
if it has no more levels than the reader allows).
-/

namespace ContentModel.Json

/-! ## Characters between tokens -/

/-- The state that a text leads to, from a state between two tokens. -/
def readOn? (s : Tree.State) (cs : List Char) : Option Tree.State :=
  (Token.readFrom? .between cs).bind (Tree.run? s)

@[simp]
theorem readOn?_nil (s : Tree.State) : readOn? s [] = some s :=
  rfl

/-- Reading on after a token. -/
theorem bind_run?_cons (s : Tree.State) (t : Token) (tokens : Option (List Token)) :
    (tokens.map (t :: ·)).bind (Tree.run? s) =
      (Tree.step? s t).bind fun s => tokens.bind (Tree.run? s) := by
  cases tokens with
  | none => cases Tree.step? s t <;> rfl
  | some ts => rfl

/-- A character that is a token of its own. -/
theorem readOn?_cons_of_token {c : Char} {t : Token} (h : Token.start? c = some ([t], .between))
    (s : Tree.State) (cs : List Char) :
    readOn? s (c :: cs) = (Tree.step? s t).bind (readOn? · cs) := by
  rw [readOn?, Token.readFrom?, Token.step?, h]
  exact bind_run?_cons s t _

/-- White space between tokens. -/
theorem readOn?_cons_of_space {c : Char} (h : Token.start? c = some ([], .between))
    (s : Tree.State) (cs : List Char) : readOn? s (c :: cs) = readOn? s cs := by
  rw [readOn?, Token.readFrom?, Token.step?, h]
  simp [readOn?]

/-- The start of a line between tokens. -/
theorem readOn?_newline (s : Tree.State) (level : Nat) (cs : List Char) :
    readOn? s (Value.newline level ++ cs) = readOn? s cs := by
  have hspaces : ∀ n, readOn? s (List.replicate n ' ' ++ cs) = readOn? s cs := by
    intro n
    induction n with
    | zero => rfl
    | succ n ih => rw [List.replicate_succ, List.cons_append, readOn?_cons_of_space rfl, ih]
  rw [Value.newline, List.cons_append, readOn?_cons_of_space rfl, hspaces]

/-! ## Strings -/

namespace Token

/-- A control character is written with the digits of its code. -/
theorem hexValue?_hexDigit {n : Nat} (h : n < 16) : Text.hexValue? (hexDigit n) = some n := by
  have hall : ∀ n < 16, Text.hexValue? (hexDigit n) = some n := by decide
  exact hall n h

/-- A character that ends no token. -/
theorem readFrom?_cons_of_step {mode mode' : Mode} {c : Char} (h : step? mode c = some ([], mode'))
    (cs : List Char) : readFrom? mode (c :: cs) = readFrom? mode' cs := by
  rw [readFrom?, h]
  simp

/-- What is written for a character in a string is read as the character. -/
theorem readFrom?_escape (acc : List Char) (c : Char) (rest : List Char) :
    readFrom? (.text ⟨acc, none, false⟩) (escape c ++ rest) =
      readFrom? (.text ⟨c :: acc, none, false⟩) rest := by
  have hshort : ∀ e, unescape? e = some c → e ≠ 'u' →
      readFrom? (.text ⟨acc, none, false⟩) ('\\' :: e :: rest) =
        readFrom? (.text ⟨c :: acc, none, false⟩) rest := by
    intro e he hu
    rw [readFrom?_cons_of_step rfl]
    exact readFrom?_cons_of_step (by simp [step?, hu, he, Partial.push]) rest
  rw [escape.eq_def]
  split
  · exact hshort '"' rfl (by decide)
  · exact hshort '\\' rfl (by decide)
  · exact hshort 'b' rfl (by decide)
  · exact hshort 'f' rfl (by decide)
  · exact hshort 'n' rfl (by decide)
  · exact hshort 'r' rfl (by decide)
  · exact hshort 't' rfl (by decide)
  · rename_i hquote hbackslash _ _ _ _ _
    split
    · rename_i hcontrol
      have hhigh := hexValue?_hexDigit (show c.toNat / 16 < 16 by omega)
      have hlow := hexValue?_hexDigit (show c.toNat % 16 < 16 by omega)
      have hcode : 16 * (16 * (16 * (16 * 0 + 0) + 0) + c.toNat / 16) + c.toNat % 16 = c.toNat := by
        omega
      have hzero : Text.hexValue? '0' = some 0 := rfl
      simp only [List.cons_append, List.nil_append]
      rw [readFrom?_cons_of_step rfl, readFrom?_cons_of_step rfl,
        readFrom?_cons_of_step (by rw [step?, hzero]; rfl), readFrom?_cons_of_step (by rw [step?, hzero]; rfl),
        readFrom?_cons_of_step (by rw [step?, hhigh]; rfl)]
      refine readFrom?_cons_of_step ?_ rest
      rw [step?, hlow, Option.map_some]
      dsimp only
      rw [hcode, Partial.pushUnit]
      dsimp only
      rw [if_neg (by omega), if_neg (by omega), Char.ofNat_toNat]
    · rename_i hcontrol
      refine readFrom?_cons_of_step ?_ rest
      rw [step?, if_neg hquote, if_neg hbackslash, if_neg hcontrol]
      rfl

/-- The text of a string is read as the string. -/
theorem readFrom?_quote (s : String) (rest : List Char) :
    readFrom? .between (quote s ++ rest) =
      (readFrom? .between rest).map (.string (some s) :: ·) := by
  have hchars : ∀ cs acc : List Char,
      readFrom? (.text ⟨acc, none, false⟩) (cs.flatMap escape ++ '"' :: rest) =
        (readFrom? .between rest).map (.string (some (String.ofList (acc.reverse ++ cs))) :: ·) := by
    intro cs
    induction cs with
    | nil =>
      intro acc
      rw [List.flatMap_nil, List.nil_append, List.append_nil]
      rfl
    | cons c cs ih =>
      intro acc
      rw [List.flatMap_cons, List.append_assoc, readFrom?_escape, ih, List.reverse_cons,
        List.append_assoc, List.singleton_append]
  have hstart := hchars s.toList []
  rw [List.reverse_nil, List.nil_append, String.ofList_toList] at hstart
  rw [quote, List.cons_append, List.cons_append, List.append_assoc, List.singleton_append, ← hstart]
  exact readFrom?_cons_of_step rfl _

/-! ## Words and numerals -/

/-- A text that ends a word and a numeral: it is empty, or starts with a character of neither. -/
def Ends (cs : List Char) : Prop :=
  ∀ c ∈ cs.head?, c.isAlpha = false ∧ isNumeral c = false

theorem readFrom?_word {letters : List Char} {t : Token} (h : ofWord? letters = some t)
    {rest : List Char} (hrest : Ends rest) :
    readFrom? (.word letters) rest = (readFrom? .between rest).map (t :: ·) := by
  cases rest with
  | nil => simp [readFrom?, finish?, h]
  | cons c rest =>
    have hc := (hrest c (by simp)).1
    rw [readFrom?, readFrom?, step?, step?, hc, h]
    cases hstart : start? c with
    | none => simp
    | some next => simp [Function.comp_def]

/-- Characters that only make a token longer. -/
theorem readFrom?_append_of_extend {mode : List Char → Mode} {p : Char → Bool}
    (hstep : ∀ acc c, p c = true → step? (mode acc) c = some ([], mode (c :: acc))) {cs : List Char}
    (hcs : ∀ c ∈ cs, p c = true) (acc rest : List Char) :
    readFrom? (mode acc) (cs ++ rest) = readFrom? (mode (cs.reverse ++ acc)) rest := by
  induction cs generalizing acc with
  | nil => rfl
  | cons c cs ih =>
    obtain ⟨hc, hcs⟩ := List.forall_mem_cons.mp hcs
    rw [List.cons_append, readFrom?_cons_of_step (hstep acc c hc), ih hcs, List.reverse_cons,
      List.append_assoc, List.singleton_append]

/-- Letters are read as the word that they make. -/
theorem readFrom?_letters (c : Char) (cs : List Char) {t : Token}
    (hstart : start? c = some ([], .word [c])) (hcs : cs.all Char.isAlpha = true)
    (h : ofWord? (c :: cs).reverse = some t) {rest : List Char} (hrest : Ends rest) :
    readFrom? .between (c :: cs ++ rest) = (readFrom? .between rest).map (t :: ·) := by
  have hfirst : step? .between c = some ([], .word [c]) := hstart
  have hinside : ∀ acc c, Char.isAlpha c = true → step? (.word acc) c = some ([], .word (c :: acc)) :=
    fun acc c hc => by rw [step?, if_pos hc]
  rw [List.reverse_cons] at h
  rw [List.cons_append, readFrom?_cons_of_step hfirst,
    readFrom?_append_of_extend hinside (List.all_eq_true.mp hcs), readFrom?_word h hrest]

/-- The text of a numeral is read as the numeral. -/
theorem readFrom?_numeral {cs : List Char} {n : Numeral} (h : Numeral.ofChars? cs = some n)
    {rest : List Char} (hrest : Ends rest) :
    readFrom? .between (cs ++ rest) = (readFrom? .between rest).map (.number n :: ·) := by
  obtain ⟨⟨c, cs, rfl, hstart⟩, hchars⟩ := Numeral.isNumeral_of_ofChars? h
  have hinside : ∀ acc c, isNumeral c = true → step? (.numeral acc) c = some ([], .numeral (c :: acc)) :=
    fun acc c hc => by rw [step?, if_pos hc]
  have hend : ∀ acc : List Char, Numeral.ofChars? acc.reverse = some n →
      readFrom? (.numeral acc) rest = (readFrom? .between rest).map (.number n :: ·) := by
    intro acc hacc
    cases rest with
    | nil => simp [readFrom?, finish?, hacc]
    | cons c rest =>
      have hc := (hrest c (by simp)).2
      rw [readFrom?, readFrom?, step?, step?, hc, hacc]
      cases hstart : start? c with
      | none => simp
      | some next => simp [Function.comp_def]
  have hfirst : step? .between c = some ([], .numeral [c]) := by
    have hspace : isSpace c = false := by
      have hne : ∀ d, (d.isDigit || d = '-') = false → c ≠ d := by
        rintro d hd rfl
        rw [hstart] at hd
        cases hd
      simp [isSpace, hne ' ' rfl, hne '\t' rfl, hne '\n' rfl, hne '\r' rfl]
    rw [step?, start?.eq_def]
    split
    iterate 7 exact absurd hstart (by decide)
    rw [if_neg (by rw [hspace]; exact Bool.false_ne_true), if_pos hstart]
  rw [List.cons_append, readFrom?_cons_of_step hfirst,
    readFrom?_append_of_extend hinside (List.forall_mem_cons.mp hchars).2]
  exact hend _ (by rw [List.reverse_append, List.reverse_reverse]; exact h)

end Token

/-! ## The tree of a value -/

mutual

/-- The tree that the text of a value is read into. -/
def Tree.ofValue : Value → Tree
  | .null => .null
  | .bool b => .bool b
  | .number n => .number ((Numeral.ofChars? n.text).getD default)
  | .string s => .string (some s)
  | .array items => .array (Tree.ofValues items)
  | .object members => .object (Tree.ofMembers members)

/-- The trees of items. -/
def Tree.ofValues : List Value → List Tree
  | [] => []
  | v :: vs => Tree.ofValue v :: Tree.ofValues vs

/-- The names and trees of members. -/
def Tree.ofMembers : List (String × Value) → List (Option String × Tree)
  | [] => []
  | (n, v) :: ms => (some n, Tree.ofValue v) :: Tree.ofMembers ms

end

/-! ## The text of a value -/

/-- A place where a value may stand: any token that starts a value starts it there. -/
def Tree.State.Awaits (s : Tree.State) (around : List Tree.Frame) : Prop :=
  ∀ t, t ≠ .closeArray → Tree.step? s t = Tree.start? around t

theorem Tree.awaits_value (around : List Tree.Frame) : (State.value around).Awaits around :=
  fun _ _ => rfl

theorem Tree.awaits_firstItem (around : List Tree.Frame) :
    (State.firstItem around).Awaits (.array [] :: around) := by
  intro t ht
  cases t with
  | closeArray => exact absurd rfl ht
  | _ => rfl

/-- A token before the rest of a text, where a value may stand. -/
theorem readOn?_of_readFrom? {cs rest : List Char} {t : Token}
    (h : Token.readFrom? .between (cs ++ rest) = (Token.readFrom? .between rest).map (t :: ·))
    (s : Tree.State) : readOn? s (cs ++ rest) = (Tree.step? s t).bind (readOn? · rest) := by
  rw [readOn?, h]
  exact bind_run?_cons s t _

open Token (Ends)

theorem ends_cons {c : Char} (halpha : c.isAlpha = false) (hnumeral : Token.isNumeral c = false)
    (cs : List Char) : Ends (c :: cs) := by
  intro d hd
  obtain rfl := Option.some.inj hd
  exact ⟨halpha, hnumeral⟩

theorem ends_newline (level : Nat) (cs : List Char) : Ends (Value.newline level ++ cs) :=
  ends_cons (by decide) (by decide) _

/-- Where a value may stand, its text puts the tree of the value there. -/
def Value.Reads (v : Value) : Prop :=
  ∀ (level : Nat) (s : Tree.State) (around : List Tree.Frame), s.Awaits around →
    ∀ rest, Ends rest →
      readOn? s (v.prettyChars level ++ rest) = readOn? (Tree.put (Tree.ofValue v) around) rest

/-- The texts of items, where the first of them may stand. -/
theorem readOn?_prettyItems (level : Nat) {s : Tree.State} {items : List Tree} {around : List Tree.Frame}
    (hs : s.Awaits (.array items :: around)) {rest : List Char} (hrest : Ends rest) {v : Value}
    {vs : List Value} (h : ∀ w ∈ v :: vs, w.Reads) :
    readOn? s (Value.prettyItems level (v :: vs) ++ rest) =
      readOn? (.afterItem ((Tree.ofValues (v :: vs)).reverse ++ items) around) rest := by
  induction vs generalizing v s items with
  | nil => exact h v List.mem_cons_self level s _ hs rest hrest
  | cons w vs ih =>
    obtain ⟨hv, hvs⟩ := List.forall_mem_cons.mp h
    have hothers := ih (Tree.awaits_value (.array (Tree.ofValue v :: items) :: around)) hvs
    rw [Value.prettyItems]
    simp only [List.cons_append, List.append_assoc]
    rw [hv level s _ hs _ (ends_cons rfl rfl _), Tree.put, readOn?_cons_of_token rfl]
    refine (readOn?_newline _ _ _).trans (hothers.trans ?_)
    simp only [Tree.ofValues, List.reverse_cons, List.append_assoc, List.cons_append, List.nil_append]

/-- The texts of members, where the name of the first of them may stand. -/
theorem readOn?_prettyMembers (level : Nat) {s : Tree.State} {members : List (Option String × Tree)}
    {around : List Tree.Frame}
    (hs : ∀ name, Tree.step? s (.string name) = some (.colon members name around))
    {rest : List Char} (hrest : Ends rest) {m : String × Value} {ms : Members}
    (h : ∀ m' ∈ m :: ms, m'.2.Reads) :
    readOn? s (Value.prettyMembers level (m :: ms) ++ rest) =
      readOn? (.afterMember ((Tree.ofMembers (m :: ms)).reverse ++ members) around) rest := by
  induction ms generalizing m s members with
  | nil =>
    have hm := h m List.mem_cons_self
    rw [Value.prettyMembers, List.append_assoc, readOn?_of_readFrom? (Token.readFrom?_quote m.1 _), hs,
      Option.bind_some, List.cons_append, readOn?_cons_of_token rfl]
    refine (readOn?_cons_of_space rfl _ _).trans ?_
    exact hm level _ _ (Tree.awaits_value _) rest hrest
  | cons m' ms ih =>
    obtain ⟨hm, hms⟩ := List.forall_mem_cons.mp h
    have hothers := ih (s := .name ((some m.1, Tree.ofValue m.2) :: members) around) (fun _ => rfl) hms
    rw [Value.prettyMembers]
    simp only [List.cons_append, List.append_assoc]
    rw [readOn?_of_readFrom? (Token.readFrom?_quote m.1 _), hs, Option.bind_some,
      readOn?_cons_of_token rfl]
    refine (readOn?_cons_of_space rfl _ _).trans ?_
    refine (hm level _ _ (Tree.awaits_value _) _ (ends_cons rfl rfl _)).trans ?_
    rw [Tree.put, readOn?_cons_of_token rfl]
    refine (readOn?_newline _ _ _).trans (hothers.trans ?_)
    simp only [Tree.ofMembers, List.reverse_cons, List.append_assoc, List.cons_append, List.nil_append]

/-- A value whose text is one token is read as the token. -/
theorem Value.reads_of_readFrom? {v : Value} {t : Token}
    (h : ∀ level rest, Ends rest → Token.readFrom? .between (v.prettyChars level ++ rest) =
      (Token.readFrom? .between rest).map (t :: ·))
    (hstart : ∀ around, Tree.start? around t = some (Tree.put (Tree.ofValue v) around))
    (hclose : t ≠ .closeArray) : v.Reads := by
  intro level s around hs rest hrest
  rw [readOn?_of_readFrom? (h level rest hrest), hs t hclose, hstart]
  rfl

/-- An array is read item by item, between brackets. -/
theorem Value.reads_array {items : List Value} (h : ∀ v ∈ items, v.Reads) : (array items).Reads := by
  intro level s around hs rest hrest
  cases items with
  | nil =>
    rw [prettyChars, List.cons_append, readOn?_cons_of_token rfl, hs .openArray (by simp)]
    exact readOn?_cons_of_token (t := .closeArray) rfl _ _
  | cons v vs =>
    have hitems := readOn?_prettyItems (level + 1) (Tree.awaits_firstItem around)
      (ends_newline level (']' :: rest)) h
    rw [List.append_nil, readOn?_newline, readOn?_cons_of_token (t := .closeArray) rfl] at hitems
    rw [prettyChars]
    simp only [List.cons_append, List.append_assoc, List.nil_append]
    rw [readOn?_cons_of_token (t := .openArray) rfl, hs .openArray (by simp)]
    refine (readOn?_newline _ _ _).trans (hitems.trans ?_)
    rw [Tree.step?, List.reverse_reverse]
    rfl

/-- An object is read member by member, between braces. -/
theorem Value.reads_object {members : Members} (h : ∀ m ∈ members, m.2.Reads) :
    (object members).Reads := by
  intro level s around hs rest hrest
  cases members with
  | nil =>
    rw [prettyChars, List.cons_append, readOn?_cons_of_token rfl, hs .openObject (by simp)]
    exact readOn?_cons_of_token (t := .closeObject) rfl _ _
  | cons m ms =>
    have hmembers := readOn?_prettyMembers (level + 1) (s := .firstName around) (fun _ => rfl)
      (ends_newline level ('}' :: rest)) h
    rw [List.append_nil, readOn?_newline, readOn?_cons_of_token (t := .closeObject) rfl] at hmembers
    rw [prettyChars]
    simp only [List.cons_append, List.append_assoc, List.nil_append]
    rw [readOn?_cons_of_token (t := .openObject) rfl, hs .openObject (by simp)]
    refine (readOn?_newline _ _ _).trans (hmembers.trans ?_)
    rw [Tree.step?, List.reverse_reverse]
    rfl

/-- **The text of a value.**  Wherever a value may stand, its text puts the tree of the value there. -/
theorem Value.reads {v : Value} (h : v.WellFormed) : v.Reads := by
  induction v using Value.inductionOn with
  | null =>
    refine reads_of_readFrom? (t := .null) (fun level rest hrest => ?_) (fun _ => rfl) nofun
    exact Token.readFrom?_letters 'n' ['u', 'l', 'l'] rfl rfl rfl hrest
  | bool b =>
    refine reads_of_readFrom? (t := .bool b) (fun level rest hrest => ?_) (fun _ => rfl) nofun
    cases b with
    | true => exact Token.readFrom?_letters 't' ['r', 'u', 'e'] rfl rfl rfl hrest
    | false => exact Token.readFrom?_letters 'f' ['a', 'l', 's', 'e'] rfl rfl rfl hrest
  | number n =>
    obtain ⟨numeral, hnumeral, -⟩ := Option.bind_eq_some_iff.mp (number?_text h)
    refine reads_of_readFrom? (t := .number numeral)
      (fun level rest hrest => Token.readFrom?_numeral hnumeral hrest) (fun around => ?_) nofun
    rw [Tree.ofValue, hnumeral]
    rfl
  | string str =>
    exact reads_of_readFrom? (fun level rest _ => Token.readFrom?_quote str rest) (fun _ => rfl) nofun
  | array items ih => exact reads_array fun v hv => ih v hv (wellFormedItems_iff.mp h v hv)
  | object members ih => exact reads_object fun m hm => ih m hm (wellFormedMembers_iff.mp h.2 m hm)

/-- The text of a value is read into the tree of the value. -/
theorem Tree.parse?_pretty {v : Value} (h : v.WellFormed) :
    Tree.parse? v.pretty = some (Tree.ofValue v) := by
  have hread := Value.reads h 0 (.value []) [] (Tree.awaits_value []) [] (by simp [Ends])
  rw [List.append_nil, Tree.put, readOn?_nil, readOn?] at hread
  obtain ⟨tokens, htokens, hrun⟩ := Option.bind_eq_some_iff.mp hread
  have htext : Token.read? v.pretty.toList = some tokens := by
    rw [Value.pretty, String.toList_ofList]
    exact htokens
  rw [Tree.parse?, htext]
  simp only [Option.bind_eq_bind, Option.bind_some, hrun]

/-! ## The value of its tree -/

/-- Trees of items have the items, if none has more levels than allowed. -/
theorem Tree.items?_ofValues {limit : Nat} {items : List Value}
    (h : ∀ v ∈ items, Tree.value? limit (Tree.ofValue v) = if v.depth ≤ limit then some v else none) :
    Tree.items? limit (Tree.ofValues items) =
      if Value.depthOfItems items ≤ limit then some items else none := by
  induction items with
  | nil => simp [Tree.ofValues, Tree.items?, Value.depthOfItems]
  | cons v vs ih =>
    obtain ⟨hv, hvs⟩ := List.forall_mem_cons.mp h
    rw [Tree.ofValues, Tree.items?, hv, ih hvs]
    by_cases hdepth : v.depth ≤ limit <;> by_cases hdepths : Value.depthOfItems vs ≤ limit <;>
      simp [Value.depthOfItems, hdepth, hdepths]

/-- Trees of members have the members, if none has more levels than allowed. -/
theorem Tree.members?_ofMembers {limit : Nat} {members : Members}
    (h : ∀ m ∈ members,
      Tree.value? limit (Tree.ofValue m.2) = if m.2.depth ≤ limit then some m.2 else none) :
    Tree.members? limit (Tree.ofMembers members) =
      if Value.depthOfMembers members ≤ limit then some members else none := by
  induction members with
  | nil => simp [Tree.ofMembers, Tree.members?, Value.depthOfMembers]
  | cons m ms ih =>
    obtain ⟨hm, hms⟩ := List.forall_mem_cons.mp h
    rw [Tree.ofMembers, Tree.members?, hm, ih hms]
    by_cases hdepth : m.2.depth ≤ limit <;> by_cases hdepths : Value.depthOfMembers ms ≤ limit <;>
      simp [Value.depthOfMembers, hdepth, hdepths]

/-- A tree of a value has the value, if it has no more levels than allowed. -/
theorem Tree.value?_ofValue {v : Value} (h : v.WellFormed) (limit : Nat) :
    Tree.value? limit (Tree.ofValue v) = if v.depth ≤ limit then some v else none := by
  induction v using Value.inductionOn generalizing limit with
  | null => rfl
  | bool b => rfl
  | number n =>
    obtain ⟨numeral, hnumeral, hnumber⟩ := Option.bind_eq_some_iff.mp (number?_text h)
    rw [Tree.ofValue, hnumeral, Option.getD_some, Tree.value?, hnumber]
    rfl
  | string s => rfl
  | array items ih =>
    cases limit with
    | zero => rfl
    | succ limit =>
      rw [Tree.ofValue, Tree.value?, if_neg (Nat.succ_ne_zero limit), Nat.add_sub_cancel,
        Tree.items?_ofValues fun v hv => ih v hv (Value.wellFormedItems_iff.mp h v hv) limit]
      simp only [Value.depth, Nat.add_le_add_iff_right]
      split <;> rfl
  | object members ih =>
    cases limit with
    | zero => rfl
    | succ limit =>
      rw [Tree.ofValue, Tree.value?, if_neg (Nat.succ_ne_zero limit), Nat.add_sub_cancel,
        Tree.members?_ofMembers fun m hm => ih m hm (Value.wellFormedMembers_iff.mp h.2 m hm) limit]
      simp only [Value.depth, Nat.add_le_add_iff_right]
      split
      · rw [Option.map_some, Keyed.ofWrites_of_nodup h.1]
      · rfl

/-- **Reading back.**  The text of a value is read as the value exactly if the value has no more levels
than the reader allows, and not at all otherwise. -/
theorem Value.parse?_pretty {v : Value} (h : v.WellFormed) :
    Value.parse? v.pretty = if v.depth ≤ nestingLimit then some v else none := by
  rw [Value.parse?, Tree.parse?_pretty h, Option.bind_some, Tree.value?_ofValue h]

end ContentModel.Json

import Mathlib.Data.List.Forall2
import Mathlib.Data.List.Induction
import Mathlib.Data.List.Nodup
import ContentModel.Keyed

/-
# Distinct names in lists of named entries

Putting entries one after the other leaves their names distinct, and where names are distinct, a name shows
the one entry that has it.

Main statements: `get?_eq_some_iff` (what a name shows), `nodup_map_ofPuts`, `ofPuts_of_nodup` and
`find?_ofPuts_eq_some_iff` (elements put one after the other), and `mem_ofWrites_iff` (entries).
-/

namespace ContentModel.Keyed

variable {α β : Type}

/-! ## Looking up -/

/-- Looking up a name is finding the first entry that has it. -/
theorem find?_eq_find? (name : α → String) (n : String) (xs : List α) :
    find? name n xs = xs.find? fun x => name x = n := by
  induction xs with
  | nil => rfl
  | cons x xs ih =>
    by_cases hx : name x = n
    · simp [find?, hx]
    · simp [find?, hx, ih]

/-- What is found under a name is in the list and has the name. -/
theorem mem_and_name_of_find? {name : α → String} {n : String} {xs : List α}
    {x : α} (h : find? name n xs = some x) : x ∈ xs ∧ name x = n := by
  rw [find?_eq_find?] at h
  exact ⟨List.mem_of_find?_eq_some h, by simpa using List.find?_some h⟩

/-- Nothing is found under a name exactly if it is none of the names. -/
theorem find?_eq_none_iff {name : α → String} {n : String} {xs : List α} :
    find? name n xs = none ↔ n ∉ xs.map name := by
  rw [find?_eq_find?, List.find?_eq_none, List.mem_map]
  constructor
  · rintro h ⟨x, hx, rfl⟩
    exact h x hx (by simp)
  · intro h x hx heq
    exact h ⟨x, hx, of_decide_eq_true heq⟩

/-- A name shows no value exactly if it is none of the names. -/
theorem get?_eq_none_iff {n : String} {entries : List (String × β)} :
    get? n entries = none ↔ n ∉ entries.map Prod.fst := by
  rw [get?, Option.map_eq_none_iff, find?_eq_none_iff]

/-- The first entry shows its value. -/
theorem get?_cons_self (n : String) (v : β) (entries : List (String × β)) :
    get? n ((n, v) :: entries) = some v := by
  simp [get?, find?]

/-- An entry of another name shows nothing. -/
theorem get?_cons_of_ne {m n : String} (h : m ≠ n) (v : β) (entries : List (String × β)) :
    get? n ((m, v) :: entries) = get? n entries := by
  simp [get?, find?, h]

/-- A name shows what it shows in the first part, or else in the second. -/
theorem get?_append (n : String) (xs ys : List (String × β)) :
    get? n (xs ++ ys) = (get? n xs).or (get? n ys) := by
  simp only [get?, find?_eq_find?, List.find?_append, Option.map_or]

/-- Where names are distinct, a name shows exactly the value that stands under it. -/
theorem get?_eq_some_iff {n : String} {v : β} {entries : List (String × β)}
    (h : (entries.map Prod.fst).Nodup) : get? n entries = some v ↔ (n, v) ∈ entries := by
  induction entries with
  | nil => simp [get?, find?]
  | cons entry entries ih =>
    obtain ⟨m, w⟩ := entry
    rw [List.map_cons, List.nodup_cons] at h
    by_cases hm : m = n
    · subst hm
      have hnone : (m, v) ∉ entries := fun hmem => h.1 (List.mem_map.mpr ⟨(m, v), hmem, rfl⟩)
      rw [get?_cons_self]
      simp [hnone, eq_comm]
    · rw [get?_cons_of_ne hm, ih h.2]
      simp [Ne.symm hm]

/-- Where names are distinct, their order does not matter. -/
theorem get?_perm {xs ys : List (String × β)} (h : xs.Perm ys) (hnodup : (xs.map Prod.fst).Nodup)
    (n : String) : get? n xs = get? n ys := by
  have hnodup' : (ys.map Prod.fst).Nodup := (h.map Prod.fst).nodup_iff.mp hnodup
  refine Option.ext fun v => ?_
  rw [get?_eq_some_iff hnodup, get?_eq_some_iff hnodup', h.mem_iff]

/-! ## Putting -/

/-- Putting an element under a new name adds it at the end. -/
theorem upsert_of_notMem {name : α → String} {x : α} {xs : List α}
    (h : name x ∉ xs.map name) : upsert name x xs = xs ++ [x] := by
  induction xs with
  | nil => rfl
  | cons y ys ih =>
    rw [List.map_cons, List.mem_cons, not_or] at h
    rw [upsert, if_neg (Ne.symm h.1), ih h.2, List.cons_append]

/-- A put keeps names distinct. -/
theorem nodup_map_upsert {name : α → String} {x : α} {xs : List α} (h : (xs.map name).Nodup) :
    ((upsert name x xs).map name).Nodup := by
  rw [map_upsert]
  split
  · exact h
  · rename_i hnew
    rw [← List.concat_eq_append]
    exact List.Nodup.concat hnew h

/-- The names after a put are the one put and the old ones. -/
theorem mem_map_upsert {name : α → String} {x : α} {xs : List α} {n : String} :
    n ∈ (upsert name x xs).map name ↔ n = name x ∨ n ∈ xs.map name := by
  rw [map_upsert]
  split
  · rename_i hx
    exact ⟨Or.inr, fun h => h.elim (fun heq => heq ▸ hx) id⟩
  · rw [List.mem_append, List.mem_singleton, or_comm]

/-- An element of the list after a put is the one put or an old one. -/
theorem mem_upsert {name : α → String} {x y : α} {xs : List α} (h : y ∈ upsert name x xs) :
    y = x ∨ y ∈ xs := by
  induction xs with
  | nil => exact Or.inl (List.mem_singleton.mp h)
  | cons z zs ih =>
    rw [upsert] at h
    split at h
    · exact (List.mem_cons.mp h).imp_right (List.mem_cons_of_mem z)
    · rcases List.mem_cons.mp h with rfl | h
      · exact Or.inr List.mem_cons_self
      · exact (ih h).imp_right (List.mem_cons_of_mem z)

/-- Where names are distinct, an element of the list after a put is the one put or one of another
name. -/
theorem eq_or_mem_of_mem_upsert {name : α → String} {x y : α} {xs : List α}
    (hnodup : (xs.map name).Nodup) (hy : y ∈ upsert name x xs) :
    y = x ∨ y ∈ xs ∧ name y ≠ name x := by
  induction xs with
  | nil => exact Or.inl (List.mem_singleton.mp hy)
  | cons z zs ih =>
    rw [List.map_cons, List.nodup_cons] at hnodup
    rw [upsert] at hy
    split at hy
    · rename_i hz
      rcases List.mem_cons.mp hy with hy | hy
      · exact Or.inl hy
      · refine Or.inr ⟨List.mem_cons_of_mem _ hy, fun heq => hnodup.1 ?_⟩
        rw [hz, ← heq]
        exact List.mem_map_of_mem hy
    · rename_i hz
      rcases List.mem_cons.mp hy with rfl | hy
      · exact Or.inr ⟨List.mem_cons_self, hz⟩
      · exact (ih hnodup.2 hy).imp_right fun h => ⟨List.mem_cons_of_mem _ h.1, h.2⟩

/-- A put leaves the elements of other names at their places. -/
theorem getElem?_upsert_of_ne {name : α → String} {x y : α} {xs : List α} {i : Nat}
    (hy : xs[i]? = some y) (hne : name y ≠ name x) : (upsert name x xs)[i]? = some y := by
  induction xs generalizing i with
  | nil => cases hy
  | cons z zs ih =>
    rw [upsert]
    split
    · rename_i hz
      cases i with
      | zero =>
        obtain rfl : z = y := Option.some.inj hy
        exact absurd hz hne
      | succ i => exact hy
    · cases i with
      | zero => exact hy
      | succ i => exact ih hy

/-- A put leaves known names at their places. -/
theorem idxOf_map_upsert {name : α → String} {x : α} {xs : List α} {n : String}
    (hn : n ∈ xs.map name) : ((upsert name x xs).map name).idxOf n = (xs.map name).idxOf n := by
  rw [map_upsert]
  split
  · rfl
  · exact List.idxOf_append_of_mem hn

/-- A put under a name of the first part changes the first part only. -/
theorem upsert_append_of_mem {name : α → String} {x : α} {xs : List α} (h : name x ∈ xs.map name)
    (ys : List α) : upsert name x (xs ++ ys) = upsert name x xs ++ ys := by
  induction xs with
  | nil => cases h
  | cons z zs ih =>
    by_cases hz : name z = name x
    · simp [upsert, hz]
    · have hzs : name x ∈ zs.map name := by
        rw [List.map_cons, List.mem_cons] at h
        exact h.resolve_left (Ne.symm hz)
      simp [upsert, hz, ih hzs]

/-- A put under a name that the first part does not have changes the second part only. -/
theorem upsert_append_of_notMem {name : α → String} {x : α} {xs : List α}
    (h : name x ∉ xs.map name) (ys : List α) : upsert name x (xs ++ ys) = xs ++ upsert name x ys := by
  induction xs with
  | nil => rfl
  | cons z zs ih =>
    rw [List.map_cons, List.mem_cons, not_or] at h
    simp [upsert, Ne.symm h.1, ih h.2]

/-- A put keeps a relation to another list if it takes what is related to the old element of its name to
what is related to the new one. -/
theorem forall₂_upsert {name : α → String} {R : β → α → Prop} {zs : List β} {xs : List α} {x y : α}
    (hy : find? name (name x) xs = some y) (hR : ∀ z, R z y → R z x)
    (h : List.Forall₂ R zs xs) : List.Forall₂ R zs (upsert name x xs) := by
  induction h with
  | nil => cases hy
  | cons hhead htail ih =>
    rename_i z w zs ws
    by_cases hw : name w = name x
    · simp only [find?, hw, if_true, Option.some.injEq] at hy
      subst hy
      rw [upsert, if_pos hw]
      exact List.Forall₂.cons (hR z hhead) htail
    · simp only [find?, hw, if_false] at hy
      rw [upsert, if_neg hw]
      exact List.Forall₂.cons hhead (ih hy)

/-! ## Elements put one after the other -/

/-- Puts elements one after the other, each under its name. -/
def ofPuts (name : α → String) (puts : List α) : List α :=
  puts.foldl (fun entries x => upsert name x entries) []

/-- Of the elements of a name, the one that is put last. -/
def LastPut (name : α → String) (puts : List α) (n : String) (x : α) : Prop :=
  ∃ before after, puts = before ++ x :: after ∧ name x = n ∧ n ∉ after.map name

section Puts

variable {name : α → String} {puts : List α} {n : String} {x : α}

/-- One more put. -/
theorem ofPuts_concat (name : α → String) (puts : List α) (x : α) :
    ofPuts name (puts ++ [x]) = upsert name x (ofPuts name puts) :=
  List.foldl_concat _ _ _ _

/-- Puts leave names distinct. -/
theorem nodup_map_ofPuts (name : α → String) (puts : List α) : ((ofPuts name puts).map name).Nodup := by
  induction puts using List.reverseRecOn with
  | nil => exact List.nodup_nil
  | append_singleton puts x ih =>
    rw [ofPuts_concat]
    exact nodup_map_upsert ih

/-- Puts leave the names of what was put. -/
theorem mem_map_ofPuts_iff : n ∈ (ofPuts name puts).map name ↔ n ∈ puts.map name := by
  induction puts using List.reverseRecOn with
  | nil => rfl
  | append_singleton puts x ih =>
    rw [ofPuts_concat, mem_map_upsert, ih, List.map_append, List.mem_append, List.map_singleton,
      List.mem_singleton, or_comm]

/-- What is put under distinct names stands as it was put. -/
theorem ofPuts_of_nodup (h : (puts.map name).Nodup) : ofPuts name puts = puts := by
  induction puts using List.reverseRecOn with
  | nil => rfl
  | append_singleton puts x ih =>
    rw [List.map_append, List.nodup_append] at h
    have hnew : name x ∉ puts.map name := fun hmem => h.2.2 _ hmem _ (by simp) rfl
    rw [ofPuts_concat, ih h.1, upsert_of_notMem hnew]

/-- Everything that puts leave was put. -/
theorem mem_of_mem_ofPuts (h : x ∈ ofPuts name puts) : x ∈ puts := by
  induction puts using List.reverseRecOn with
  | nil => exact h
  | append_singleton puts y ih =>
    rw [ofPuts_concat] at h
    rcases mem_upsert h with rfl | h
    · simp
    · exact List.mem_append_left _ (ih h)

/-- What is put last is the first of its name from the end. -/
theorem lastPut_iff_find?_reverse :
    LastPut name puts n x ↔ (puts.reverse.find? fun y => name y = n) = some x := by
  rw [List.find?_eq_some_iff_append]
  constructor
  · rintro ⟨before, after, rfl, hname, hafter⟩
    refine ⟨by simpa using hname, after.reverse, before.reverse, by simp, fun y hy => ?_⟩
    have hne : name y ≠ n := fun heq =>
      hafter (List.mem_map.mpr ⟨y, List.mem_reverse.mp hy, heq⟩)
    simpa using hne
  · rintro ⟨hname, after, before, hsplit, hafter⟩
    refine ⟨before.reverse, after.reverse, ?_, by simpa using hname, ?_⟩
    · rw [← List.reverse_reverse puts, hsplit]
      simp
    · rw [List.map_reverse, List.mem_reverse, List.mem_map]
      rintro ⟨y, hy, heq⟩
      simpa [heq] using hafter y hy

/-- **Last puts.**  A name shows what was put last under it. -/
theorem find?_ofPuts_eq_some_iff : find? name n (ofPuts name puts) = some x ↔ LastPut name puts n x := by
  have hreverse : find? name n (ofPuts name puts) = puts.reverse.find? fun y => name y = n := by
    induction puts using List.reverseRecOn with
    | nil => rfl
    | append_singleton puts y ih =>
      rw [ofPuts_concat, List.reverse_concat]
      by_cases hn : n = name y
      · subst hn
        rw [find?_upsert_self, List.find?_cons_of_pos (by simp)]
      · rw [find?_upsert_of_ne name y hn, ih, List.find?_cons_of_neg (by simpa using Ne.symm hn)]
  rw [hreverse, lastPut_iff_find?_reverse]

end Puts

/-! ## Entries written one after the other -/

/-- Writes leave names distinct. -/
theorem nodup_ofWrites (writes : List (String × β)) :
    ((ofWrites writes).map Prod.fst).Nodup :=
  nodup_map_ofPuts Prod.fst writes

/-- Writes leave the names that were written. -/
theorem mem_map_ofWrites_iff {writes : List (String × β)} {n : String} :
    n ∈ (ofWrites writes).map Prod.fst ↔ n ∈ writes.map Prod.fst :=
  mem_map_ofPuts_iff

/-- Writes under distinct names stand as they were made. -/
theorem ofWrites_of_nodup {writes : List (String × β)}
    (h : (writes.map Prod.fst).Nodup) : ofWrites writes = writes :=
  ofPuts_of_nodup h

/-- An entry is left by writes exactly if it was written and no later write is of its name. -/
theorem mem_ofWrites_iff {writes : List (String × β)} {n : String} {v : β} :
    (n, v) ∈ ofWrites writes ↔
      ∃ before after, writes = before ++ (n, v) :: after ∧ n ∉ after.map Prod.fst := by
  have hfind : get? n (ofWrites writes) = some v ↔
      find? Prod.fst n (ofPuts Prod.fst writes) = some (n, v) := by
    rw [get?, Option.map_eq_some_iff]
    constructor
    · rintro ⟨⟨m, w⟩, hw, rfl⟩
      obtain rfl : m = n := (mem_and_name_of_find? hw).2
      exact hw
    · exact fun h => ⟨(n, v), h, rfl⟩
  rw [← get?_eq_some_iff (nodup_ofWrites writes), hfind, find?_ofPuts_eq_some_iff]
  simp [LastPut]

/-- Every entry that writes leave was written. -/
theorem mem_of_mem_ofWrites {writes : List (String × β)} {entry : String × β}
    (h : entry ∈ ofWrites writes) : entry ∈ writes :=
  mem_of_mem_ofPuts h

end ContentModel.Keyed

import Mathlib.Data.List.Basic
import Mathlib.Data.List.Induction
import Mathlib.Data.List.Nodup
import ContentModel.Proofs.Keyed
import ContentModel.Schema.Inference

/-
# The keys and values of records

A key of a record counts as missing when it is absent and when it holds `null`.  The keys of several
records are listed in order of first appearance.

Main statements: `Record.value?_eq_some_iff` (which value a key counts as holding) and
`EntitySchema.firstAppearances_keysOf` (the keys of records).
-/

namespace ContentModel

/-! ## Values -/

namespace Record

/-- The value of a key, unless it is absent or null. -/
def value? (name : String) (record : Record) : Option Json.Value :=
  (Keyed.get? name record).bind Json.Value.nonNull?

/-- A value counts exactly if it stands under its key and is not null. -/
theorem value?_eq_some_iff {name : String} {record : Record} {v : Json.Value} :
    record.value? name = some v ↔ Keyed.get? name record = some v ∧ v ≠ .null := by
  rw [value?]
  cases Keyed.get? name record with
  | none => simp
  | some w =>
    cases w <;> simp [Json.Value.nonNull?] <;> (intro h; subst h; simp)

end Record

/-! ## Order of first appearance -/

/-- The names are those of a list, each of them once, in order of first appearance. -/
structure FirstAppearances (names all : List String) : Prop where
  mem_iff : ∀ n, n ∈ names ↔ n ∈ all
  ordered : names.Pairwise fun m n => all.idxOf m < all.idxOf n

namespace FirstAppearances

variable {names all : List String}

/-- Names in order of first appearance are distinct. -/
theorem nodup (h : FirstAppearances names all) : names.Nodup :=
  h.ordered.imp fun hlt heq => absurd hlt (by rw [heq]; exact Nat.lt_irrefl _)

/-- A name seen before adds nothing. -/
theorem append_of_mem (h : FirstAppearances names all) {n : String} (hn : n ∈ names) :
    FirstAppearances names (all ++ [n]) := by
  constructor
  · intro m
    rw [h.mem_iff, List.mem_append, List.mem_singleton]
    constructor
    · exact Or.inl
    · rintro (hm | rfl)
      · exact hm
      · exact (h.mem_iff m).mp hn
  · refine h.ordered.imp_of_mem fun {a b} ha hb hlt => ?_
    rw [h.mem_iff] at ha hb
    rwa [List.idxOf_append_of_mem ha, List.idxOf_append_of_mem hb]

/-- A new name is added at the end. -/
theorem append_of_notMem (h : FirstAppearances names all) {n : String} (hn : n ∉ names) :
    FirstAppearances (names ++ [n]) (all ++ [n]) := by
  constructor
  · intro m
    rw [List.mem_append, List.mem_append, h.mem_iff]
  · have hall : n ∉ all := fun hmem => hn ((h.mem_iff n).mpr hmem)
    have hlast : (all ++ [n]).idxOf n = all.length := by
      rw [List.idxOf_append_of_notMem hall]
      simp
    rw [List.pairwise_append]
    refine ⟨?_, List.pairwise_singleton _ _, ?_⟩
    · refine h.ordered.imp_of_mem fun {a b} ha hb hlt => ?_
      rw [h.mem_iff] at ha hb
      rwa [List.idxOf_append_of_mem ha, List.idxOf_append_of_mem hb]
    · intro a ha b hb
      rw [List.mem_singleton] at hb
      rw [h.mem_iff] at ha
      rw [hb, hlast, List.idxOf_append_of_mem ha]
      exact List.idxOf_lt_length_of_mem ha

end FirstAppearances

/-- **First appearances.**  Adding names one by one, unless they are known, lists them in order of
first appearance. -/
theorem Keyed.firstAppearances_extend (all : List String) :
    FirstAppearances (Keyed.extend [] all) all := by
  induction all using List.reverseRecOn with
  | nil => exact ⟨fun n => Iff.rfl, List.Pairwise.nil⟩
  | append_singleton all n ih =>
    rw [Keyed.extend] at ih ⊢
    rw [List.foldl_concat]
    split
    · exact ih.append_of_mem ‹_›
    · exact ih.append_of_notMem ‹_›

/-- The names after an addition are those known and those added. -/
theorem Keyed.mem_extend {known new : List String} {n : String} :
    n ∈ Keyed.extend known new ↔ n ∈ known ∨ n ∈ new := by
  induction new generalizing known with
  | nil => simp [Keyed.extend]
  | cons m new ih =>
    rw [Keyed.extend, List.foldl_cons, ← Keyed.extend, ih, List.mem_cons]
    split
    · rename_i hm
      constructor
      · exact Or.imp_right Or.inr
      · rintro (h | rfl | h)
        · exact Or.inl h
        · exact Or.inl hm
        · exact Or.inr h
    · rw [List.mem_append, List.mem_singleton, or_assoc]

/-- Adding names keeps names distinct. -/
theorem Keyed.nodup_extend {known : List String} (h : known.Nodup) (new : List String) :
    (Keyed.extend known new).Nodup := by
  induction new generalizing known with
  | nil => exact h
  | cons m new ih =>
    rw [Keyed.extend, List.foldl_cons, ← Keyed.extend]
    refine ih ?_
    split
    · exact h
    · rename_i hm
      rw [← List.concat_eq_append]
      exact List.Nodup.concat hm h

/-- Adding names in two goes. -/
theorem Keyed.extend_append (known new new' : List String) :
    Keyed.extend known (new ++ new') = Keyed.extend (Keyed.extend known new) new' :=
  List.foldl_append

/-- Adding known names adds nothing. -/
theorem Keyed.extend_of_forall_mem {known names : List String} (h : ∀ n ∈ names, n ∈ known) :
    Keyed.extend known names = known := by
  induction names with
  | nil => rfl
  | cons n names ih =>
    rw [Keyed.extend, List.foldl_cons, if_pos (h n List.mem_cons_self)]
    exact ih fun m hm => h m (List.mem_cons_of_mem _ hm)

/-- Adding the names that are there after an addition gives just these. -/
theorem Keyed.extend_extend (known new : List String) :
    Keyed.extend known (Keyed.extend known new) = Keyed.extend known new := by
  induction new using List.reverseRecOn with
  | nil => exact extend_of_forall_mem fun n hn => hn
  | append_singleton new n ih =>
    have hlast : ∀ known new : List String, Keyed.extend known (new ++ [n]) =
        if n ∈ Keyed.extend known new then Keyed.extend known new
        else Keyed.extend known new ++ [n] := fun known new => Keyed.extend_append known new [n]
    rw [hlast]
    by_cases hn : n ∈ Keyed.extend known new
    · rw [if_pos hn, ih]
    · rw [if_neg hn, hlast, ih, if_neg hn]

/-- Puts leave their names in order of first appearance. -/
theorem Keyed.map_ofPuts {α : Type} (name : α → String) (puts : List α) :
    (Keyed.ofPuts name puts).map name = Keyed.extend [] (puts.map name) := by
  induction puts using List.reverseRecOn with
  | nil => rfl
  | append_singleton puts x ih =>
    rw [Keyed.ofPuts_concat, Keyed.map_upsert, ih, List.map_append, Keyed.extend_append]
    rfl

/-- Writes leave their names in order of first appearance. -/
theorem Keyed.map_fst_ofWrites {β : Type} (writes : List (String × β)) :
    (Keyed.ofWrites writes).map Prod.fst = Keyed.extend [] (writes.map Prod.fst) :=
  Keyed.map_ofPuts Prod.fst writes

/-- The keys of records are listed in order of first appearance. -/
theorem EntitySchema.firstAppearances_keysOf (records : List Record) :
    FirstAppearances (EntitySchema.keysOf records)
      (records.flatMap fun record => record.map Prod.fst) :=
  Keyed.firstAppearances_extend _

end ContentModel

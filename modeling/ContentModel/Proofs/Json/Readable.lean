import ContentModel.Json.Tree
import ContentModel.Proofs.Json.Numbers
import ContentModel.Proofs.Keyed

/-
# Values that are read

What is read from a text has numbers in range, no name twice in an object, and no more levels than the
reader allows.

Main statement: `Value.wellFormed_of_parse?`.
-/

namespace ContentModel.Json

namespace Value

/-! ## Induction -/

/-- What holds of leaves, and of arrays and objects whose parts it holds of, holds of all values. -/
@[elab_as_elim]
theorem inductionOn {P : Value → Prop} (null : P null) (bool : ∀ b, P (bool b))
    (number : ∀ n, P (number n)) (string : ∀ s, P (string s))
    (array : ∀ items, (∀ v ∈ items, P v) → P (array items))
    (object : ∀ members : Members, (∀ m ∈ members, P m.2) → P (object members)) : ∀ v : Value, P v
  | .null => null
  | .bool b => bool b
  | .number n => number n
  | .string s => string s
  | .array items => array items fun v _ => inductionOn null bool number string array object v
  | .object members => object members fun m _ => inductionOn null bool number string array object m.2
termination_by v => sizeOf v
decreasing_by
  · have hlt := List.sizeOf_lt_of_mem ‹v ∈ items›
    simp only [Value.array.sizeOf_spec]
    omega
  · have hlt := List.sizeOf_lt_of_mem ‹m ∈ members›
    obtain ⟨n, v⟩ := m
    simp only [Value.object.sizeOf_spec, Prod.mk.sizeOf_spec] at hlt ⊢
    omega

/-! ## Levels -/

mutual

/-- How deep arrays and objects are nested in a value. -/
def depth : Value → Nat
  | array items => depthOfItems items + 1
  | object members => depthOfMembers members + 1
  | _ => 0

/-- How deep arrays and objects are nested in items. -/
def depthOfItems : List Value → Nat
  | [] => 0
  | v :: vs => max (depth v) (depthOfItems vs)

/-- How deep arrays and objects are nested in members. -/
def depthOfMembers : List (String × Value) → Nat
  | [] => 0
  | (_, v) :: ms => max (depth v) (depthOfMembers ms)

end

theorem depthOfItems_le_iff {items : List Value} {n : Nat} :
    depthOfItems items ≤ n ↔ ∀ v ∈ items, v.depth ≤ n := by
  induction items with
  | nil => simp [depthOfItems]
  | cons v vs ih => rw [depthOfItems, max_le_iff, ih, List.forall_mem_cons]

theorem depthOfMembers_le_iff {members : Members} {n : Nat} :
    depthOfMembers members ≤ n ↔ ∀ m ∈ members, m.2.depth ≤ n := by
  induction members with
  | nil => simp [depthOfMembers]
  | cons m ms ih => rw [depthOfMembers, max_le_iff, ih, List.forall_mem_cons]

/-- An array has one level more than its items. -/
theorem depth_array_le_iff {items : List Value} {n : Nat} :
    (array items).depth ≤ n + 1 ↔ ∀ v ∈ items, v.depth ≤ n := by
  rw [depth, Nat.add_le_add_iff_right, depthOfItems_le_iff]

/-- An object has one level more than its members. -/
theorem depth_object_le_iff {members : Members} {n : Nat} :
    (object members).depth ≤ n + 1 ↔ ∀ m ∈ members, m.2.depth ≤ n := by
  rw [depth, Nat.add_le_add_iff_right, depthOfMembers_le_iff]

/-! ## Well-formed values -/

mutual

/-- Numbers are in range, and no object has two members of one name. -/
def WellFormed : Value → Prop
  | number n => n.WellFormed
  | array items => WellFormedItems items
  | object members => (members.map Prod.fst).Nodup ∧ WellFormedMembers members
  | _ => True

/-- All items are well-formed. -/
def WellFormedItems : List Value → Prop
  | [] => True
  | v :: vs => WellFormed v ∧ WellFormedItems vs

/-- All members are well-formed. -/
def WellFormedMembers : List (String × Value) → Prop
  | [] => True
  | (_, v) :: ms => WellFormed v ∧ WellFormedMembers ms

end

theorem wellFormedItems_iff {items : List Value} :
    WellFormedItems items ↔ ∀ v ∈ items, v.WellFormed := by
  induction items with
  | nil => simp [WellFormedItems]
  | cons v vs ih => rw [WellFormedItems, ih, List.forall_mem_cons]

theorem wellFormedMembers_iff {members : Members} :
    WellFormedMembers members ↔ ∀ m ∈ members, m.2.WellFormed := by
  induction members with
  | nil => simp [WellFormedMembers]
  | cons m ms ih => rw [WellFormedMembers, ih, List.forall_mem_cons]

end Value

/-! ## What is read -/

namespace Tree

mutual

/-- The value of a tree is well-formed, with at most as many levels as allowed. -/
theorem wellFormed_of_value? {limit : Nat} :
    ∀ {t : Tree} {v : Value}, value? limit t = some v → v.WellFormed ∧ v.depth ≤ limit
  | .null, v, h => by
    obtain rfl := Option.some.inj h
    exact ⟨trivial, Nat.zero_le _⟩
  | .bool b, v, h => by
    obtain rfl := Option.some.inj h
    exact ⟨trivial, Nat.zero_le _⟩
  | .number n, v, h => by
    obtain ⟨n, hn, rfl⟩ := Option.map_eq_some_iff.mp h
    exact ⟨wellFormed_of_number? hn, Nat.zero_le _⟩
  | .string s, v, h => by
    obtain ⟨s, -, rfl⟩ := Option.map_eq_some_iff.mp h
    exact ⟨trivial, Nat.zero_le _⟩
  | .array items, v, h => by
    rw [value?] at h
    split at h
    · cases h
    · obtain ⟨vs, hvs, rfl⟩ := Option.map_eq_some_iff.mp h
      have hitems := wellFormed_of_items? hvs
      obtain ⟨k, rfl⟩ := Nat.exists_eq_succ_of_ne_zero ‹limit ≠ 0›
      exact ⟨Value.wellFormedItems_iff.mpr fun v hv => (hitems v hv).1,
        Value.depth_array_le_iff.mpr fun v hv => (hitems v hv).2⟩
  | .object members, v, h => by
    rw [value?] at h
    split at h
    · cases h
    · obtain ⟨ms, hms, rfl⟩ := Option.map_eq_some_iff.mp h
      have hmembers : ∀ m ∈ Keyed.ofWrites ms, m.2.WellFormed ∧ m.2.depth ≤ limit - 1 :=
        fun m hm => wellFormed_of_members? hms m (Keyed.mem_of_mem_ofWrites hm)
      obtain ⟨k, rfl⟩ := Nat.exists_eq_succ_of_ne_zero ‹limit ≠ 0›
      exact ⟨⟨Keyed.nodup_ofWrites ms, Value.wellFormedMembers_iff.mpr fun m hm => (hmembers m hm).1⟩,
        Value.depth_object_le_iff.mpr fun m hm => (hmembers m hm).2⟩

/-- The values of items are well-formed, with at most as many levels as allowed. -/
theorem wellFormed_of_items? {limit : Nat} :
    ∀ {ts : List Tree} {vs : List Value}, items? limit ts = some vs →
      ∀ v ∈ vs, v.WellFormed ∧ v.depth ≤ limit
  | [], vs, h => by
    obtain rfl := Option.some.inj h
    exact List.forall_mem_nil _
  | t :: ts, vs, h => by
    obtain ⟨v, hv, h⟩ := Option.bind_eq_some_iff.mp h
    obtain ⟨rest, hrest, h⟩ := Option.bind_eq_some_iff.mp h
    obtain rfl := Option.some.inj h
    exact List.forall_mem_cons.mpr ⟨wellFormed_of_value? hv, wellFormed_of_items? hrest⟩

/-- The values of members are well-formed, with at most as many levels as allowed. -/
theorem wellFormed_of_members? {limit : Nat} :
    ∀ {ts : List (Option String × Tree)} {ms : Members}, members? limit ts = some ms →
      ∀ m ∈ ms, m.2.WellFormed ∧ m.2.depth ≤ limit
  | [], ms, h => by
    obtain rfl := Option.some.inj h
    exact List.forall_mem_nil _
  | (name, t) :: ts, ms, h => by
    obtain ⟨n, -, h⟩ := Option.bind_eq_some_iff.mp h
    obtain ⟨v, hv, h⟩ := Option.bind_eq_some_iff.mp h
    obtain ⟨rest, hrest, h⟩ := Option.bind_eq_some_iff.mp h
    obtain rfl := Option.some.inj h
    exact List.forall_mem_cons.mpr ⟨wellFormed_of_value? hv, wellFormed_of_members? hrest⟩

end

end Tree

/-- **What is read.**  A value read from a text is well-formed, with at most as many levels as the reader
allows. -/
theorem Value.wellFormed_of_parse? {text : String} {v : Value} (h : Value.parse? text = some v) :
    v.WellFormed ∧ v.depth ≤ nestingLimit := by
  obtain ⟨t, -, ht⟩ := Option.bind_eq_some_iff.mp h
  exact Tree.wellFormed_of_value? ht

end ContentModel.Json

import ContentModel.Proofs.Keyed
import ContentModel.Schema.Edit

/-
# Distinct names, and what a change of a field's type does

Places in a schema are found by name, and an edit replaces the first element of a name.  Where names
are distinct, that is the only one.

Main statements: `Schema.changeType_eq_ok_iff` (when a change of a type succeeds, and with what) and
`Schema.DistinctNames.changeType` (it keeps names distinct).
-/

namespace ContentModel

/-! ## Replacing by name -/

section Replace

variable {α : Type} (key : α → String) {k : String} (new : α)

/-- Replacing the first element of a name by one of the same name keeps all names. -/
theorem map_replaceFirst (hnew : key new = k) (xs : List α) :
    (replaceFirst (fun x => key x = k) new xs).map key = xs.map key := by
  induction xs with
  | nil => rfl
  | cons x xs ih =>
    by_cases hx : key x = k
    · simp [replaceFirst, hx, hnew]
    · simp [replaceFirst, hx, ih]

/-- An element of the list after a replacement is the new one or an old one. -/
theorem eq_or_mem_of_mem_replaceFirst {α : Type} {p : α → Bool} {new x : α} {xs : List α}
    (h : x ∈ replaceFirst p new xs) : x = new ∨ x ∈ xs := by
  induction xs with
  | nil => exact Or.inr h
  | cons y ys ih =>
    rw [replaceFirst] at h
    split at h
    · rcases List.mem_cons.mp h with h | h
      · exact Or.inl h
      · exact Or.inr (List.mem_cons_of_mem _ h)
    · rcases List.mem_cons.mp h with rfl | h
      · exact Or.inr List.mem_cons_self
      · exact (ih h).imp_right (List.mem_cons_of_mem _)

/-- Where a name is known, it shows the element that replaces the one it showed. -/
theorem Keyed.find?_replaceFirst (hnew : key new = k) {xs : List α} {x : α}
    (h : Keyed.find? key k xs = some x) :
    Keyed.find? key k (replaceFirst (fun x => key x = k) new xs) = some new := by
  induction xs with
  | nil => cases h
  | cons y ys ih =>
    by_cases hy : key y = k
    · simp [replaceFirst, Keyed.find?, hy, hnew]
    · simp only [Keyed.find?, hy, if_false] at h
      simp [replaceFirst, Keyed.find?, hy, ih h]

/-- A replacement leaves what other names show. -/
theorem Keyed.find?_replaceFirst_of_ne (hnew : key new = k) {n : String} (hn : n ≠ k)
    (xs : List α) :
    Keyed.find? key n (replaceFirst (fun x => key x = k) new xs) = Keyed.find? key n xs := by
  induction xs with
  | nil => rfl
  | cons x xs ih =>
    by_cases hx : key x = k
    · simp [replaceFirst, Keyed.find?, hx, hnew, Ne.symm hn]
    · simp [replaceFirst, Keyed.find?, hx, ih]

/-- Replacing an element that a function takes to a result of the same name replaces the result. -/
theorem filterMap_replaceFirst {β : Type} {key' : β → String} {g : α → Option β}
    (hg : ∀ x y, g x = some y → key' y = key x) (hdefined : ∀ x, key x = k → g x ≠ none)
    {new' : β} (hnew : g new = some new') (xs : List α) :
    (replaceFirst (fun x => key x = k) new xs).filterMap g =
      replaceFirst (fun y => key' y = k) new' (xs.filterMap g) := by
  induction xs with
  | nil => rfl
  | cons x xs ih =>
    by_cases hx : key x = k
    · obtain ⟨y, hy⟩ := Option.ne_none_iff_exists'.mp (hdefined x hx)
      simp [replaceFirst, hx, hnew, hy, hg x y hy]
    · cases hy : g x with
      | none => simp [replaceFirst, hx, hy, ih]
      | some y => simp [replaceFirst, hx, hy, hg x y hy, ih]

/-- Replacing an element that a function takes to nothing changes nothing. -/
theorem filterMap_replaceFirst_of_none {β : Type} {g : α → Option β}
    (hnone : ∀ x, key x = k → g x = none) (hnew : g new = none) (xs : List α) :
    (replaceFirst (fun x => key x = k) new xs).filterMap g = xs.filterMap g := by
  induction xs with
  | nil => rfl
  | cons x xs ih =>
    by_cases hx : key x = k
    · simp [replaceFirst, hx, hnew, hnone x hx]
    · simp [replaceFirst, hx, List.filterMap_cons, ih]

/-- A function that keeps names takes what a name shows to what it shows among the results. -/
theorem Keyed.find?_filterMap {β : Type} {key' : β → String} {g : α → Option β}
    (hg : ∀ x y, g x = some y → key' y = key x) {xs : List α} {x : α} {y : β}
    (h : Keyed.find? key k xs = some x) (hy : g x = some y) :
    (xs.filterMap g).find? (fun y => key' y = k) = some y := by
  induction xs with
  | nil => cases h
  | cons z zs ih =>
    by_cases hz : key z = k
    · simp only [Keyed.find?, hz, if_true, Option.some.injEq] at h
      subst h
      simp [hy, hg z y hy, hz]
    · simp only [Keyed.find?, hz, if_false] at h
      cases hgz : g z with
      | none => simp [hgz, ih h]
      | some y' => simp [hgz, hg z y' hgz, hz, ih h]

/-- **Distinct names.**  Where names are distinct, replacing the first element of a name replaces
every element that has it. -/
theorem replaceFirst_eq_map {xs : List α} (h : (xs.map key).Nodup) :
    replaceFirst (fun x => key x = k) new xs = xs.map fun x => if key x = k then new else x := by
  induction xs with
  | nil => rfl
  | cons x xs ih =>
    rw [List.map_cons, List.nodup_cons] at h
    by_cases hx : key x = k
    · have hrest : xs.map (fun x => if key x = k then new else x) = xs := by
        rw [List.map_congr_left (g := id), List.map_id]
        intro y hy
        have hne : key y ≠ k := fun hky => h.1 (hx ▸ hky ▸ List.mem_map_of_mem hy)
        rw [if_neg hne, id]
      simp [replaceFirst, hx, hrest]
    · simp [replaceFirst, hx, ih h.2]

end Replace

/-! ## Distinct names -/

/-- No two fields of an entity have the same name. -/
def EntitySchema.DistinctNames (e : EntitySchema) : Prop :=
  e.fieldNames.Nodup

/-- No two entities of a schema have the same name, and no two fields of an entity. -/
structure Schema.DistinctNames (s : Schema) : Prop where
  entities : (s.entities.map EntitySchema.name).Nodup
  fields : ∀ e ∈ s.entities, e.DistinctNames

instance (e : EntitySchema) : Decidable e.DistinctNames :=
  inferInstanceAs (Decidable e.fieldNames.Nodup)

instance (s : Schema) : Decidable s.DistinctNames :=
  decidable_of_iff
    ((s.entities.map EntitySchema.name).Nodup ∧ ∀ e ∈ s.entities, e.DistinctNames)
    ⟨fun h => ⟨h.1, h.2⟩, fun h => ⟨h.entities, h.fields⟩⟩

/-! ## Changing a type -/

namespace EntitySchema

/-- The fields of an entity after the field of a name has become a relation. -/
theorem fields_setField_ofRelation {e : EntitySchema} (h : e.DistinctNames) (field : String) :
    (e.setField field (Field.ofRelation field)).fields =
      e.fields.map fun f => if f.name = field then Field.ofRelation field else f :=
  replaceFirst_eq_map Field.name (Field.ofRelation field) h

/-- A field that becomes a relation keeps its name. -/
theorem fieldNames_setField_ofRelation (e : EntitySchema) (field : String) :
    (e.setField field (Field.ofRelation field)).fieldNames = e.fieldNames :=
  map_replaceFirst Field.name (Field.ofRelation field) rfl e.fields

end EntitySchema

namespace Schema

/-- **Changing a type.**  A change of a field's type succeeds exactly when its target is a relation
and the field is there; then it puts a fresh relation in the field's place and shows both. -/
theorem changeType_eq_ok_iff {entity field : String} {target : FieldType} {s s' : Schema}
    {change : TypeChange} :
    s.changeType entity field target = .ok (change, s') ↔
      target = .relation ∧ ∃ e f, s.entity? entity = some e ∧ e.field? field = some f ∧
        change = ⟨entity, f, Field.ofRelation field⟩ ∧
        s' = s.setEntity entity (e.setField field (Field.ofRelation field)) := by
  by_cases ht : target = .relation
  · subst ht
    cases he : s.entity? entity with
    | none =>
      simp [changeType, replaceField, needField, needEntity, he, Except.map, bind, Except.bind]
    | some e =>
      cases hf : e.field? field with
      | none =>
        simp [changeType, replaceField, needField, needEntity, he, hf, Except.map, bind, Except.bind]
      | some f =>
        simp [changeType, replaceField, needField, needEntity, he, hf, Except.map, bind, Except.bind,
          eq_comm]
  · simp [changeType, ht]

/-- A change of a type keeps names distinct. -/
theorem DistinctNames.changeType {entity field : String} {target : FieldType} {s s' : Schema}
    {change : TypeChange} (hs : s.DistinctNames)
    (h : s.changeType entity field target = .ok (change, s')) : s'.DistinctNames := by
  obtain ⟨-, e, f, he, -, -, rfl⟩ := changeType_eq_ok_iff.mp h
  obtain ⟨hmem, hname⟩ := Keyed.mem_and_name_of_find? he
  constructor
  · have hnames := map_replaceFirst EntitySchema.name (e.setField field (.ofRelation field)) hname
      s.entities
    rw [setEntity, hnames]
    exact hs.entities
  · intro e' he'
    rcases eq_or_mem_of_mem_replaceFirst he' with rfl | he'
    · rw [EntitySchema.DistinctNames, EntitySchema.fieldNames_setField_ofRelation]
      exact hs.fields e hmem
    · exact hs.fields e' he'

end Schema

end ContentModel

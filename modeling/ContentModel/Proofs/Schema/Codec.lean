import ContentModel.Proofs.Json.RoundTrip
import ContentModel.Schema.Text

/-
# Reading saved schemas

The text of a value is read into a document with the lists and tables of the value, as far down as the reader
allows.  A field is found in it at any level together with its sub-fields, or not at all if these lie too
deep, and so are entities and schemas.

Main statement: `Schema.ofJson?_json` (a schema reads back from its text exactly if the text has no more
levels than the reader allows).
-/

namespace ContentModel

open Json (Value)
open Notation (Node)

/-! ## Printed values as documents -/

namespace Notation.Node

/-- The document that the text of a value is read into, when lists and tables may be nested `limit` deep. -/
def ofPrinted (limit : Nat) (v : Value) : Node :=
  ofTree limit (Json.Tree.ofValue v)

theorem ofTrees_ofValues (limit : Nat) (items : List Value) :
    ofTrees limit (Json.Tree.ofValues items) = items.map (ofPrinted limit) := by
  induction items with
  | nil => rfl
  | cons v vs ih => rw [Json.Tree.ofValues, ofTrees, ih, List.map_cons, ofPrinted]

/-- Every member of a printed object has a name. -/
theorem namedMembers?_ofMembers (limit : Nat) (members : Json.Members) :
    namedMembers? (ofTreeMembers limit (Json.Tree.ofMembers members)) =
      some (members.map fun m => (m.1, ofPrinted limit m.2)) := by
  induction members with
  | nil => rfl
  | cons m ms ih =>
    rw [namedMembers?] at ih
    rw [Json.Tree.ofMembers, ofTreeMembers, namedMembers?, List.mapM_cons, ih]
    rfl

/-- No name stands twice where all names are distinct. -/
theorem repeats_eq_false {α : Type} {members : List (String × α)} (h : (members.map Prod.fst).Nodup)
    (declared : List String) : repeats declared members = false := by
  induction members with
  | nil => rfl
  | cons m ms ih =>
    obtain ⟨hm, hms⟩ := List.nodup_cons.mp h
    rw [repeats, ih hms, Bool.or_false, Bool.and_eq_false_iff]
    exact Or.inr (by simpa using hm)

theorem ofPrinted_array (limit : Nat) (items : List Value) :
    ofPrinted (limit + 1) (.array items) = .list (items.map (ofPrinted limit)) := by
  rw [ofPrinted, Json.Tree.ofValue, ofTree, if_neg (Nat.succ_ne_zero limit), Nat.add_sub_cancel,
    ofTrees_ofValues]

theorem ofPrinted_object (limit : Nat) (members : Json.Members) :
    ofPrinted (limit + 1) (.object members) =
      .table (members.map fun m => (m.1, ofPrinted limit m.2)) := by
  rw [ofPrinted, Json.Tree.ofValue, ofTree, if_neg (Nat.succ_ne_zero limit), Nat.add_sub_cancel,
    namedMembers?_ofMembers]

theorem ofJson?_pretty {v : Value} (h : v.WellFormed) :
    ofJson? v.pretty = some (ofPrinted Json.nestingLimit v) := by
  rw [ofJson?, Json.Tree.parse?_pretty h, Option.map_some, ofPrinted]

end Notation.Node

/-! ## Reading back -/

/-- What is printed with `toValue` is read again with `read?`, as long as it lies within the limit. -/
def ReadsBack {α : Type} (toValue : α → Value) (read? : Node → Option α) (x : α) : Prop :=
  ∀ limit, read? (Node.ofPrinted limit (toValue x)) = if (toValue x).depth ≤ limit then some x else none

/-- A list is read item by item, and all of it has to lie within the limit. -/
theorem mapM_ofPrinted {α : Type} {toValue : α → Value} {read? : Node → Option α} {xs : List α}
    (h : ∀ x ∈ xs, ReadsBack toValue read? x) (limit : Nat) :
    ((xs.map toValue).map (Node.ofPrinted limit)).mapM read? =
      if Value.depthOfItems (xs.map toValue) ≤ limit then some xs else none := by
  induction xs with
  | nil => simp [Value.depthOfItems]
  | cons x xs ih =>
    obtain ⟨hx, hxs⟩ := List.forall_mem_cons.mp h
    rw [List.map_cons, List.map_cons, List.mapM_cons, hx limit, ih hxs, Value.depthOfItems]
    by_cases hdepth : (toValue x).depth ≤ limit <;>
      by_cases hdepths : Value.depthOfItems (xs.map toValue) ≤ limit <;> simp [hdepth, hdepths]

theorem list?_ofPrinted {α : Type} {toValue : α → Value} {read? : Node → Option α} {xs : List α}
    (h : ∀ x ∈ xs, ReadsBack toValue read? x) (limit : Nat) :
    (Node.ofPrinted limit (.array (xs.map toValue))).list?.bind (List.mapM read?) =
      if (Value.array (xs.map toValue)).depth ≤ limit then some xs else none := by
  cases limit with
  | zero => rfl
  | succ limit =>
    rw [Node.ofPrinted_array, Node.list?, Option.bind_some, mapM_ofPrinted h]
    simp only [Value.depth, Nat.add_le_add_iff_right]

/-! ## Fields -/

namespace Field

/-- What holds of a field whose sub-fields it holds of, holds of all fields. -/
@[elab_as_elim]
theorem inductionOn {P : Field → Prop}
    (field : ∀ name type required unique subFields, (∀ f ∈ subFields, P f) →
      P ⟨name, type, required, unique, subFields⟩) : ∀ f : Field, P f
  | ⟨name, type, required, unique, subFields⟩ =>
    field name type required unique subFields fun f _ => inductionOn field f
termination_by f => sizeOf f
decreasing_by
  have hlt := List.sizeOf_lt_of_mem ‹f ∈ subFields›
  simp only [Field.mk.sizeOf_spec]
  omega

theorem toValues_eq_map (fs : List Field) : toValues fs = fs.map toValue := by
  induction fs with
  | nil => rfl
  | cons f fs ih => rw [toValues, ih, List.map_cons]

theorem ofItems?_eq_mapM (ns : List Node) : ofItems? ns = ns.mapM ofNode? := by
  induction ns with
  | nil => rfl
  | cons n ns ih => rw [ofItems?, ih, List.mapM_cons]; rfl

theorem ofList?_eq_mapM (n : Node) : ofList? n = n.list?.bind (List.mapM ofNode?) := by
  cases n with
  | leaf l => rw [ofList?, Node.list?]; split <;> rfl
  | list items => exact ofItems?_eq_mapM items
  | table members => rfl

/-- A list of fields reads back if each of them does. -/
theorem ofList?_ofPrinted {fs : List Field} (h : ∀ f ∈ fs, ReadsBack toValue ofNode? f) (limit : Nat) :
    ofList? (Node.ofPrinted limit (.array (toValues fs))) =
      if (Value.array (toValues fs)).depth ≤ limit then some fs else none := by
  rw [ofList?_eq_mapM, toValues_eq_map, list?_ofPrinted h]

/-- The parts of a field that are leaves are there at any level. -/
theorem ofParts?_leaves {fields : List (String × Node)} {name : String} {type : FieldType}
    {required unique : Bool} (hname : Keyed.get? "name" fields = some (.leaf (.ofText? (some name))))
    (htype : Keyed.get? "type" fields = some (.leaf (.ofText? (some type.tag))))
    (hrequired : Keyed.get? "required" fields = some (.leaf (.ofBool required)))
    (hunique : Keyed.get? "unique" fields = some (.leaf (.ofBool unique))) (subFields : List Field) :
    ofParts? fields subFields = some ⟨name, type, required, unique, subFields⟩ := by
  have htag : FieldType.ofNode? (.leaf (.ofText? (some type.tag))) = some type :=
    FieldType.ofTag?_tag type
  simp only [ofParts?, Node.required, hname, htype, hrequired, hunique, Option.bind_some, htag]
  rfl

/-- A field with sub-fields has one level more than their list. -/
theorem depth_toValue_cons_le_iff {name : String} {type : FieldType} {required unique : Bool} {f : Field}
    {fs : List Field} {n : Nat} :
    (toValue ⟨name, type, required, unique, f :: fs⟩).depth ≤ n + 1 ↔
      (Value.array (toValues (f :: fs))).depth ≤ n := by
  rw [toValue, Value.depth_object_le_iff]
  simp [toValues, Value.depth]

/-- **Fields.**  A field reads back with all its sub-fields. -/
theorem readsBack (f : Field) : ReadsBack toValue ofNode? f := by
  induction f using Field.inductionOn with
  | field name type required unique subFields ih =>
    intro limit
    cases subFields with
    | nil =>
      cases limit with
      | zero => rfl
      | succ limit =>
        have hnames : ["name", "type", "required", "unique"].Nodup := by decide
        rw [toValue, List.append_nil, Node.ofPrinted_object, ofNode?,
          Node.repeats_eq_false (by exact hnames), if_neg Bool.false_ne_true]
        exact ofParts?_leaves rfl rfl rfl rfl []
    | cons f fs =>
      cases limit with
      | zero => rfl
      | succ limit =>
        have hnames : declared.Nodup := by decide
        have hsub := ofList?_ofPrinted ih limit
        rw [if_congr depth_toValue_cons_le_iff rfl rfl, toValue, Node.ofPrinted_object, ofNode?,
          Node.repeats_eq_false (by exact hnames), if_neg Bool.false_ne_true]
        refine (congrArg (Option.bind · _) hsub).trans ?_
        split
        · exact ofParts?_leaves rfl rfl rfl rfl _
        · rfl

theorem wellFormed_toValues {fs : List Field} (h : ∀ f ∈ fs, f.toValue.WellFormed) :
    Value.WellFormedItems (toValues fs) := by
  rw [toValues_eq_map, Value.wellFormedItems_iff, List.forall_mem_map]
  exact h

/-- The value of a field has distinct names. -/
theorem wellFormed_toValue (f : Field) : f.toValue.WellFormed := by
  induction f using Field.inductionOn with
  | field name type required unique subFields ih =>
    cases subFields with
    | nil =>
      have hnames : ["name", "type", "required", "unique"].Nodup := by decide
      exact ⟨hnames, trivial, trivial, trivial, trivial, trivial⟩
    | cons f fs =>
      have hnames : declared.Nodup := by decide
      refine ⟨hnames, trivial, trivial, trivial, trivial, ?_, trivial⟩
      exact wellFormed_toValues ih

end Field

/-! ## Entities -/

/-- An entity has one level more than the list of its fields. -/
theorem EntitySchema.depth_toValue_succ_le_iff {e : EntitySchema} {n : Nat} :
    e.toValue.depth ≤ n + 1 ↔ (Value.array (Field.toValues e.fields)).depth ≤ n := by
  rw [toValue, Value.depth_object_le_iff]
  simp [Value.depth]

/-- An entity reads back with all its fields. -/
theorem EntitySchema.readsBack (e : EntitySchema) : ReadsBack toValue ofNode? e := by
  intro limit
  cases limit with
  | zero => rfl
  | succ limit =>
    have hnames : ["name", "fields"].Nodup := by decide
    have hfields := @Field.ofList?_ofPrinted e.fields (fun f _ => f.readsBack) limit
    rw [if_congr depth_toValue_succ_le_iff rfl rfl, toValue, Node.ofPrinted_object, ofNode?, Node.fields?,
      Node.repeats_eq_false (by exact hnames), if_neg Bool.false_ne_true]
    refine (congrArg (Option.bind · _) hfields).trans ?_
    split <;> rfl

/-- The value of an entity has distinct names. -/
theorem EntitySchema.wellFormed_toValue (e : EntitySchema) : e.toValue.WellFormed := by
  have hnames : ["name", "fields"].Nodup := by decide
  exact ⟨hnames, trivial, Field.wellFormed_toValues fun f _ => f.wellFormed_toValue, trivial⟩

/-! ## Schemas -/

/-- A schema has one level more than the list of its entities. -/
theorem Schema.depth_toValue_succ_le_iff {s : Schema} {n : Nat} :
    s.toValue.depth ≤ n + 1 ↔ (Value.array (s.entities.map EntitySchema.toValue)).depth ≤ n := by
  rw [toValue, Value.depth_object_le_iff, List.forall_mem_singleton]

/-- A schema reads back with all its entities. -/
theorem Schema.readsBack (s : Schema) : ReadsBack toValue ofNode? s := by
  intro limit
  cases limit with
  | zero => rfl
  | succ limit =>
    have hentities := list?_ofPrinted (fun e (_ : e ∈ s.entities) => e.readsBack) limit
    rw [if_congr depth_toValue_succ_le_iff rfl rfl, toValue, Node.ofPrinted_object, ofNode?, Node.fields?,
      Node.repeats_eq_false (by exact List.nodup_singleton "entities"), if_neg Bool.false_ne_true]
    change ((Node.ofPrinted limit (.array (s.entities.map EntitySchema.toValue))).list?.bind fun nodes =>
      (nodes.mapM EntitySchema.ofNode?).bind fun es => some (Schema.mk es)) = _
    rw [← Option.bind_assoc, hentities]
    split <;> rfl

/-- The value of a schema has distinct names. -/
theorem Schema.wellFormed_toValue (s : Schema) : s.toValue.WellFormed := by
  refine ⟨List.nodup_singleton _, Value.wellFormedItems_iff.mpr ?_, trivial⟩
  rw [List.forall_mem_map]
  exact fun e _ => e.wellFormed_toValue

/-- **Reading a saved schema.**  A schema reads back from its text exactly if the text has no more levels than
the reader allows. -/
theorem Schema.ofJson?_json (s : Schema) :
    ofJson? s.json = if s.toValue.depth ≤ Json.nestingLimit then some s else none := by
  rw [ofJson?, json, Node.ofJson?_pretty s.wellFormed_toValue, Option.bind_some, s.readsBack]

/-! ## Levels -/

/-- The value of a field has two levels more than those of its sub-fields, but for an upper bound. -/
theorem Field.depth_toValue_le_iff {f : Field} {n : Nat} :
    f.toValue.depth ≤ n + 2 ↔ ∀ g ∈ f.subFields, g.toValue.depth ≤ n := by
  obtain ⟨name, type, required, unique, subFields⟩ := f
  cases subFields with
  | nil => simp [toValue, Value.depth, Value.depthOfMembers]
  | cons f fs =>
    rw [depth_toValue_cons_le_iff, Value.depth_array_le_iff, toValues_eq_map, List.forall_mem_map]

theorem EntitySchema.depth_toValue_le_iff {e : EntitySchema} {n : Nat} :
    e.toValue.depth ≤ n + 2 ↔ ∀ f ∈ e.fields, f.toValue.depth ≤ n := by
  rw [depth_toValue_succ_le_iff, Value.depth_array_le_iff, Field.toValues_eq_map, List.forall_mem_map]

theorem Schema.depth_toValue_le_iff {s : Schema} {n : Nat} :
    s.toValue.depth ≤ n + 2 ↔ ∀ e ∈ s.entities, e.toValue.depth ≤ n := by
  rw [depth_toValue_succ_le_iff, Value.depth_array_le_iff, List.forall_mem_map]

end ContentModel

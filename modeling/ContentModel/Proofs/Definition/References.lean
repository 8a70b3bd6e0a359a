import ContentModel.Proofs.Definition.Attributes
import ContentModel.Proofs.Definition.Placement

/-
# References between definitions

The attribute of a component field refers to its component by the field's name, written twice with a dot
in between, and the definition of the component is that of a collection named for the same text.  The two
are made apart from each other, and belong together because that text determines the name.

Main statements: `componentUid_injective`, `componentAttributes_entityDocument` and
`attributes_componentDocument` (what definitions have as attributes), and `exportSchema_resolves`.
-/

namespace ContentModel.Definition

open ContentModel.Json (Value Members)

/-! ## Names of components -/

/-- The name of a field written twice determines the name, also if the name has dots of its own. -/
theorem componentUid_injective {n n' : String} (h : componentUid n = componentUid n') : n = n' := by
  have htwice : n.toList ++ '.' :: n.toList = n'.toList ++ '.' :: n'.toList := by
    simpa [componentUid, ← String.toList_inj] using h
  -- Both texts have the dot in the middle.
  have hlength : n.toList.length = n'.toList.length := by
    have htotal := congrArg List.length htwice
    simp only [List.length_append, List.length_cons] at htotal
    omega
  exact String.toList_inj.mp (List.append_inj htwice hlength).1

theorem componentCollection_injective {n n' : String}
    (h : componentCollection n = componentCollection n') : n = n' := by
  refine componentUid_injective ?_
  simpa [componentCollection, ← String.toList_inj] using h

/-! ## Reading a definition -/

namespace Document

/-- The attributes of a definition, in order. -/
def attributes (d : Document) : Members :=
  match d.content.member? "attributes" with
  | some (.object members) => members
  | _ => []

/-- The attributes of type component, in order. -/
def componentAttributes (d : Document) : Members :=
  d.attributes.filter fun a => a.2.member? "type" = some (.string "component")

/-- The definition is that of a collection of the name. -/
def IsCollection (d : Document) (name : String) : Prop :=
  d.content.member? "collectionName" = some (.string name)

instance (d : Document) (name : String) : Decidable (d.IsCollection name) :=
  inferInstanceAs (Decidable (_ = _))

end Document

/-- The attribute refers to a component. -/
def RefersTo (v : Value) (reference : String) : Prop :=
  v.member? "component" = some (.string reference)

/-! ## Fields that are left out -/

/-- The name of the field is reserved, or its type says nothing. -/
def IsLeftOut (reserved : List String) (f : Field) : Prop :=
  f.name ∈ reserved ∨ f.type = .nullish ∨ f.type = .unknown

instance (reserved : List String) (f : Field) : Decidable (IsLeftOut reserved f) :=
  inferInstanceAs (Decidable (_ ∨ _))

/-- A type that says nothing is one of two. -/
theorem hasSignal_and_eq_not_isLeftOut (reserved : List String) (f : Field) :
    (f.type.hasSignal && !reserved.contains f.name) = decide (¬ IsLeftOut reserved f) := by
  rw [Bool.eq_iff_iff, Bool.and_eq_true, decide_eq_true_iff, IsLeftOut]
  cases f.type <;> simp [FieldType.hasSignal]

theorem exportedFields_eq (settings : ExportSettings) (e : EntitySchema) :
    exportedFields settings e = e.fields.filter fun f => ¬ IsLeftOut settings.reserved.fields f :=
  List.filter_congr fun f _ => hasSignal_and_eq_not_isLeftOut settings.reserved.fields f

theorem exportedSubFields_eq (settings : ExportSettings) (f : Field) :
    exportedSubFields settings f =
      f.subFields.filter fun g => ¬ IsLeftOut settings.reserved.subFields g :=
  List.filter_congr fun g _ => hasSignal_and_eq_not_isLeftOut settings.reserved.subFields g

/-! ## The definition of an entity -/

section Entity

variable (settings : ExportSettings) {e : EntitySchema} (he : e.DistinctNames)

include he

/-- The attributes of an entity are those of the fields that are not left out, in order. -/
theorem attributes_entityDocument :
    (entityDocument settings e).attributes =
      (exportedFields settings e).map fun f => (f.name, attributeOf settings f) := by
  have hnames : (((exportedFields settings e).map fun f =>
      (f.name, attributeOf settings f)).map Prod.fst).Nodup := by
    rw [List.map_map]
    exact List.Nodup.sublist (List.Sublist.map Field.name List.filter_sublist) he
  exact Keyed.ofWrites_of_nodup hnames

/-- The attributes of type component are those of the fields with a document of their own. -/
theorem componentAttributes_entityDocument :
    (entityDocument settings e).componentAttributes =
      (componentFields settings e).map fun f => (f.name, attributeOf settings f) := by
  rw [Document.componentAttributes, attributes_entityDocument settings he, List.filter_map,
    componentFields]
  congr 1
  refine List.filter_congr fun f _ => ?_
  simp only [Function.comp, type_attributeOf, Option.some.injEq, Value.string.injEq]
  refine decide_eq_decide.mpr ⟨fun h => @plainType_injective _ .component h, ?_⟩
  rintro h
  rw [h]
  rfl

/-- Of the components of an entity, exactly one has the collection of a field that has one. -/
theorem countP_isCollection {f : Field} (hf : f ∈ componentFields settings e) :
    ((componentFields settings e).map (componentDocument settings e.name)).countP
      (fun d => d.IsCollection (componentCollection f.name)) = 1 := by
  have hnames : ((componentFields settings e).map Field.name).Nodup :=
    he.sublist ((List.filter_sublist.trans List.filter_sublist).map Field.name)
  have hcount : ((componentFields settings e).map Field.name).count f.name = 1 :=
    List.count_eq_one_of_mem hnames (List.mem_map_of_mem hf)
  rw [← hcount, List.count, List.countP_map, List.countP_map]
  refine List.countP_congr fun g _ => ?_
  have hcollection : (componentDocument settings e.name g).IsCollection (componentCollection f.name) ↔
      componentCollection g.name = componentCollection f.name := by
    show some (Value.string _) = some (Value.string _) ↔ _
    rw [Option.some.injEq, Value.string.injEq]
  simp only [Function.comp, decide_eq_true_eq, beq_iff_eq, hcollection]
  exact ⟨componentCollection_injective, fun h => h ▸ rfl⟩

end Entity

/-- The attribute of a component field refers to its component. -/
theorem refersTo_attributeOf (settings : ExportSettings) {f : Field} (h : f.type = .component) :
    RefersTo (attributeOf settings f) (componentUid f.name) := by
  simp [RefersTo, attributeOf, h, baseAttribute, Value.member?, Keyed.get?, Keyed.find?]

/-! ## The definition of a component -/

section Component

variable (settings : ExportSettings) (entity : String) (f : Field)

/-- The attributes of a component are those of the sub-fields that are not left out. -/
theorem attributes_componentDocument :
    (componentDocument settings entity f).attributes =
      Keyed.ofWrites ((exportedSubFields settings f).map fun g => (g.name, subAttributeOf settings g)) :=
  rfl

/-- The word for a type in a component: a component inside it is opaque. -/
def subType (t : FieldType) : String :=
  if t = .component then "json" else plainType t

theorem type_subAttributeOf (g : Field) :
    (subAttributeOf settings g).member? "type" = some (.string (subType g.type)) := by
  rw [subAttributeOf]
  split
  · rename_i h
    simp [h, subType, baseAttribute, Value.member?, Keyed.get?, Keyed.find?]
  · rename_i h
    rw [type_attributeOf, subType, if_neg h]

theorem subType_ne (t : FieldType) : subType t ≠ "component" := by
  cases t <;> decide

/-- Each attribute of a component is that of a sub-field that is not left out. -/
theorem exists_of_mem_attributes_componentDocument {a : String × Value}
    (ha : a ∈ (componentDocument settings entity f).attributes) :
    ∃ g ∈ f.subFields, g.name = a.1 ∧ ¬ IsLeftOut settings.reserved.subFields g ∧
      a.2.member? "type" = some (.string (subType g.type)) := by
  rw [attributes_componentDocument, exportedSubFields_eq] at ha
  obtain ⟨g, hg, rfl⟩ := List.mem_map.mp (Keyed.mem_of_mem_ofWrites ha)
  rw [List.mem_filter, decide_eq_true_eq] at hg
  exact ⟨g, hg.1, rfl, hg.2, type_subAttributeOf settings g⟩

/-- A component has an attribute for every sub-field that is not left out. -/
theorem mem_names_attributes_componentDocument {g : Field} (hg : g ∈ f.subFields)
    (hkept : ¬ IsLeftOut settings.reserved.subFields g) :
    g.name ∈ (componentDocument settings entity f).attributes.map Prod.fst := by
  rw [attributes_componentDocument, Keyed.mem_map_ofWrites_iff, List.map_map, exportedSubFields_eq]
  exact List.mem_map.mpr ⟨g, List.mem_filter.mpr ⟨hg, decide_eq_true hkept⟩, rfl⟩

/-- No attribute of a component is of type component. -/
theorem componentAttributes_componentDocument :
    (componentDocument settings entity f).componentAttributes = [] := by
  rw [Document.componentAttributes, List.filter_eq_nil_iff]
  intro a ha
  obtain ⟨g, -, -, -, htype⟩ := exists_of_mem_attributes_componentDocument settings entity f ha
  rw [htype]
  simpa using subType_ne g.type

end Component

/-! ## Groups of documents -/

/-- The definition of an entity, with those of its components. -/
structure Group where
  head : Document
  components : List Document

/-- The documents of a group, in order. -/
def Group.documents (g : Group) : List Document :=
  g.head :: g.components

/-- The group defines an entity, and references between its definitions resolve. -/
structure Group.Resolves (settings : ExportSettings) (e : EntitySchema) (g : Group) : Prop where
  entity : g.head.kind = .entity ∧ g.head.entity = e.name
  /-- The entity has an attribute for each field that is not left out, in order. -/
  attributes : List.Forall₂
    (fun f a => a.1 = f.name ∧ a.2.member? "type" = some (.string (plainType f.type)))
    (e.fields.filter fun f => ¬ IsLeftOut settings.reserved.fields f) g.head.attributes
  /-- There is a component for each attribute of type component, in order. -/
  components : List.Forall₂
    (fun a d => d.kind = .component ∧ d.entity = e.name ∧ d.name = a.1 ∧
      ∃ reference, RefersTo a.2 reference ∧ d.IsCollection ("components_" ++ reference))
    g.head.componentAttributes g.components
  /-- Each such attribute refers to one component only. -/
  resolved : ∀ a ∈ g.head.componentAttributes, ∃ reference, RefersTo a.2 reference ∧
    g.components.countP (fun d => d.IsCollection ("components_" ++ reference)) = 1
  /-- Components refer to none. -/
  flat : ∀ d ∈ g.components, d.componentAttributes = []
  /-- A component has the sub-fields of its field that are not left out; those that are components
  themselves are opaque. -/
  subFields : ∀ f ∈ e.fields, ∀ d ∈ g.components, d.name = f.name →
    (∀ sub ∈ f.subFields, ¬ IsLeftOut settings.reserved.subFields sub →
      sub.name ∈ d.attributes.map Prod.fst) ∧
    ∀ a ∈ d.attributes, ∃ sub ∈ f.subFields, sub.name = a.1 ∧
      ¬ IsLeftOut settings.reserved.subFields sub ∧
      a.2.member? "type" =
        some (.string (if sub.type = .component then "json" else plainType sub.type))
  /-- A field that is left out has neither an attribute nor a document. -/
  leftOut : ∀ f ∈ e.fields, IsLeftOut settings.reserved.fields f →
    f.name ∉ g.head.attributes.map Prod.fst ∧ ∀ d ∈ g.components, d.name ≠ f.name

/-- The group that is exported for an entity. -/
def groupOf (settings : ExportSettings) (e : EntitySchema) : Group where
  head := entityDocument settings e
  components := (componentFields settings e).map (componentDocument settings e.name)

/-- The fields that are left out have none of the names of the others. -/
theorem name_notMem_of_isLeftOut {settings : ExportSettings} {e : EntitySchema} (he : e.DistinctNames)
    {f : Field} (hf : f ∈ e.fields) (hleft : IsLeftOut settings.reserved.fields f) :
    ∀ g ∈ exportedFields settings e, g.name ≠ f.name := by
  intro g hg hname
  rw [exportedFields_eq, List.mem_filter, decide_eq_true_eq] at hg
  obtain rfl := List.inj_on_of_nodup_map he hg.1 hf hname
  exact hg.2 hleft

/-- **One entity.**  References between the definitions of an entity with distinct names resolve. -/
theorem resolves_groupOf (settings : ExportSettings) {e : EntitySchema} (he : e.DistinctNames) :
    (groupOf settings e).Resolves settings e := by
  have hcomponent : ∀ f ∈ componentFields settings e,
      f ∈ exportedFields settings e ∧ f.type = .component := by
    intro f hf
    rw [componentFields, List.mem_filter, decide_eq_true_eq] at hf
    exact hf
  have hattributes := attributes_entityDocument settings he
  have hreferring := componentAttributes_entityDocument settings he
  constructor
  case entity => exact ⟨rfl, rfl⟩
  case attributes =>
    show List.Forall₂ _ _ (entityDocument settings e).attributes
    rw [hattributes, exportedFields_eq, List.forall₂_map_right_iff, List.forall₂_same]
    exact fun f _ => ⟨rfl, type_attributeOf settings f⟩
  case components =>
    show List.Forall₂ _ (entityDocument settings e).componentAttributes
      ((componentFields settings e).map (componentDocument settings e.name))
    rw [hreferring, List.forall₂_map_left_iff, List.forall₂_map_right_iff, List.forall₂_same]
    intro f hf
    exact ⟨rfl, rfl, rfl, componentUid f.name, refersTo_attributeOf settings (hcomponent f hf).2, rfl⟩
  case resolved =>
    show ∀ a ∈ (entityDocument settings e).componentAttributes, _
    rw [hreferring, List.forall_mem_map]
    intro f hf
    exact ⟨componentUid f.name, refersTo_attributeOf settings (hcomponent f hf).2,
      countP_isCollection settings he hf⟩
  case flat =>
    rintro d hd
    obtain ⟨f, -, rfl⟩ := List.mem_map.mp hd
    exact componentAttributes_componentDocument settings e.name f
  case subFields =>
    intro f hf d hd hname
    obtain ⟨g, hg, rfl⟩ := List.mem_map.mp hd
    have hmem : g ∈ e.fields := (List.mem_filter.mp (hcomponent g hg).1).1
    obtain rfl : g = f := List.inj_on_of_nodup_map he hmem hf hname
    exact ⟨fun sub hsub hkept => mem_names_attributes_componentDocument settings e.name g hsub hkept,
      fun a ha => exists_of_mem_attributes_componentDocument settings e.name g ha⟩
  case leftOut =>
    intro f hf hleft
    have hnone := name_notMem_of_isLeftOut he hf hleft
    constructor
    · show f.name ∉ (entityDocument settings e).attributes.map Prod.fst
      rw [hattributes, List.map_map]
      rintro hmem
      obtain ⟨g, hg, hname⟩ := List.mem_map.mp hmem
      exact hnone g hg hname
    · rintro d hd
      obtain ⟨g, hg, rfl⟩ := List.mem_map.mp hd
      exact hnone g (hcomponent g hg).1

/-- **References resolve.**  The documents of a schema come in groups, one for each entity and in their
order: the definition of the entity, then one for each of its attributes of type component, which is the
only one that the attribute refers to.  Components refer to none, and fields that are left out appear
nowhere. -/
theorem exportSchema_resolves (settings : ExportSettings) {s : Schema}
    (hs : ∀ e ∈ s.entities, e.DistinctNames) :
    ∃ groups : List Group, exportSchema settings s = groups.flatMap Group.documents ∧
      List.Forall₂ (Group.Resolves settings) s.entities groups := by
  refine ⟨s.entities.map (groupOf settings), ?_, ?_⟩
  · rw [List.flatMap_map]
    rfl
  · rw [List.forall₂_map_right_iff, List.forall₂_same]
    exact fun e he => resolves_groupOf settings (hs e he)

/-- Shops and stalls, both with an address.  The shops have an identifier, a field without values, and
hours, whose name has a dot and whose component has a component of its own. -/
def shops : Schema :=
  ⟨[⟨"shops", [Field.fresh "id" .component, Field.fresh "address" .component, Field.fresh "fax" .nullish,
      { Field.fresh "a.hours" .component with
        subFields := [Field.fresh "monday" .component, Field.fresh "note" .string] }]⟩,
    ⟨"stalls", [Field.fresh "address" .component]⟩]⟩

/-- The references resolve, although the address of the shops and that of the stalls have the same one. -/
theorem exportSchema_resolves_shops :
    (∀ e ∈ shops.entities, e.DistinctNames) ∧
      (exportSchema .standard shops).map Document.name = ["shop", "address", "a.hours", "stall", "address"] ∧
      ∃ groups : List Group, exportSchema .standard shops = groups.flatMap Group.documents ∧
        List.Forall₂ (Group.Resolves .standard) shops.entities groups := by
  have hdistinct : ∀ e ∈ shops.entities, e.DistinctNames := by decide
  exact ⟨hdistinct, by decide +kernel, exportSchema_resolves .standard hdistinct⟩

end ContentModel.Definition

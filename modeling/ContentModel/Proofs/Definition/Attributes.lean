import ContentModel.Definition.Export
import ContentModel.Proofs.Schema.Names

/-
# The attributes of a definition

The definition of an entity has one attribute for each field that is exported.  Where the names of fields
are distinct, the attribute of a name shows the type and the flags of the field of that name.

Main statements: `attribute?_entityDocument_eq_some_iff` (which attributes there are),
`hasType_entityDocument_iff` and `requires_entityDocument_iff` (what they say of the fields).
-/

namespace ContentModel.Definition

open ContentModel.Json (Value)

/-! ## Reading a definition -/

namespace Document

/-- The attribute of a name. -/
def attribute? (name : String) (d : Document) : Option Value :=
  (d.content.member? "attributes").bind (Value.member? name)

/-- The definition has an attribute of the name and of the type. -/
def HasType (d : Document) (name type : String) : Prop :=
  (d.attribute? name).bind (Value.member? "type") = some (.string type)

/-- The definition has an attribute of the name and of the type, and requires a value for it. -/
def Requires (d : Document) (name type : String) : Prop :=
  d.HasType name type ∧ (d.attribute? name).bind (Value.member? "required") = some (.bool true)

instance (d : Document) (name type : String) : Decidable (d.HasType name type) :=
  inferInstanceAs (Decidable (_ = _))

instance (d : Document) (name type : String) : Decidable (d.Requires name type) :=
  inferInstanceAs (Decidable (_ ∧ _))

end Document

/-! ## The attribute of one field -/

/-- An attribute has the word for its field's type. -/
theorem type_attributeOf (settings : ExportSettings) (f : Field) :
    (attributeOf settings f).member? "type" = some (.string (plainType f.type)) := by
  rw [attributeOf]
  cases f.type <;> simp [baseAttribute, plainType, FieldType.tag, Value.member?, Keyed.get?, Keyed.find?]

/-- Each attribute but that of a relation says whether its field is required. -/
theorem required_attributeOf (settings : ExportSettings) (f : Field) :
    (attributeOf settings f).member? "required" =
      if f.type = .relation then none else some (.bool f.required) := by
  rw [attributeOf]
  cases f.type <;> simp [baseAttribute, Value.member?, Keyed.get?, Keyed.find?]

/-- Different types have different words. -/
theorem plainType_injective {t t' : FieldType} (h : plainType t = plainType t') : t = t' := by
  revert h
  cases t <;> cases t' <;> decide

/-! ## The attributes of an entity -/

section Entity

variable (settings : ExportSettings) {e : EntitySchema} (he : e.DistinctNames)

include he

/-- **Attributes.**  The attributes of an entity's definition are those of the fields exported. -/
theorem attribute?_entityDocument_eq_some_iff (name : String) (v : Value) :
    (entityDocument settings e).attribute? name = some v ↔
      ∃ f ∈ exportedFields settings e, f.name = name ∧ attributeOf settings f = v := by
  have hnames : (((exportedFields settings e).map fun f =>
      (f.name, attributeOf settings f)).map Prod.fst).Nodup := by
    rw [List.map_map]
    exact List.Nodup.sublist (List.Sublist.map Field.name List.filter_sublist) he
  have hattribute : (entityDocument settings e).attribute? name =
      Keyed.get? name (attributes (attributeOf settings) (exportedFields settings e)) := rfl
  rw [hattribute, attributes, Keyed.ofWrites_of_nodup hnames, Keyed.get?_eq_some_iff hnames,
    List.mem_map]
  simp only [Prod.mk.injEq]

/-- The attribute of a name has the word for a type exactly if a field exported has the name and the
type. -/
theorem hasType_entityDocument_iff (name : String) (t : FieldType) :
    (entityDocument settings e).HasType name (plainType t) ↔
      ∃ f ∈ exportedFields settings e, f.name = name ∧ f.type = t := by
  rw [Document.HasType, Option.bind_eq_some_iff]
  simp only [attribute?_entityDocument_eq_some_iff settings he]
  constructor
  · rintro ⟨v, ⟨f, hf, hname, rfl⟩, htype⟩
    rw [type_attributeOf, Option.some.injEq, Value.string.injEq] at htype
    exact ⟨f, hf, hname, plainType_injective htype⟩
  · rintro ⟨f, hf, hname, rfl⟩
    exact ⟨_, ⟨f, hf, hname, rfl⟩, type_attributeOf settings f⟩

/-- An attribute of a name and of a type is required exactly if such a field is; a relation never is. -/
theorem requires_entityDocument_iff (name : String) (t : FieldType) :
    (entityDocument settings e).Requires name (plainType t) ↔
      ∃ f ∈ exportedFields settings e, f.name = name ∧ f.type = t ∧ t ≠ .relation ∧
        f.required = true := by
  rw [Document.Requires, Document.HasType, Option.bind_eq_some_iff, Option.bind_eq_some_iff]
  simp only [attribute?_entityDocument_eq_some_iff settings he]
  constructor
  · rintro ⟨⟨v, ⟨f, hf, hname, rfl⟩, htype⟩, w, ⟨g, hg, hname', rfl⟩, hrequired⟩
    -- Both properties are read off the attribute of one field, since its name is that of no other.
    have hsame : g = f := by
      have hmem : ∀ f ∈ exportedFields settings e, f ∈ e.fields := fun f hf => (List.mem_filter.mp hf).1
      exact List.inj_on_of_nodup_map he (hmem g hg) (hmem f hf) (hname'.trans hname.symm)
    subst hsame
    rw [type_attributeOf, Option.some.injEq, Value.string.injEq] at htype
    rw [required_attributeOf] at hrequired
    obtain rfl := plainType_injective htype
    split at hrequired
    · cases hrequired
    · rename_i hrelation
      rw [Option.some.injEq, Value.bool.injEq] at hrequired
      exact ⟨g, hf, hname, rfl, hrelation, hrequired⟩
  · rintro ⟨f, hf, hname, rfl, hrelation, hrequired⟩
    refine ⟨⟨_, ⟨f, hf, hname, rfl⟩, type_attributeOf settings f⟩, _, ⟨f, hf, hname, rfl⟩, ?_⟩
    rw [required_attributeOf, if_neg hrelation, hrequired]

end Entity

end ContentModel.Definition

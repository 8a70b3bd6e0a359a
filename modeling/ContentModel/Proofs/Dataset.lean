import ContentModel.Dataset
import ContentModel.Proofs.Json.RoundTrip
import ContentModel.Proofs.Traversal

/-
# Datasets and their values

A value is a dataset exactly if it is an object of arrays of objects, and then it is the value of the
dataset that it is read as: no entity, record or key is lost or moved.  So the text of a dataset is read
as the dataset, unless it has too many levels.

Main statements: `ofValue_eq_ok_iff_ofWrites` and `ofValue_eq_ok_iff` (what a value is read as),
`ofValue_object_eq_error_iff` (the fault that is reported), `ofValue_classifies` (any value) and
`ofText_pretty`.
-/

namespace ContentModel

open Json (Value)

/-- No two entities of a dataset have the same name. -/
def Dataset.DistinctNames (d : Dataset) : Prop :=
  (d.entities.map Prod.fst).Nodup

namespace Dataset

instance (d : Dataset) : Decidable d.DistinctNames :=
  inferInstanceAs (Decidable (d.entities.map Prod.fst).Nodup)

/-! ## Reading a value -/

/-- Different records have different arrays. -/
theorem recordsValue_injective : Function.Injective recordsValue := by
  have hobject : Function.Injective Value.object := fun _ _ => Value.object.inj
  exact fun _ _ heq => List.map_injective_iff.mpr hobject (Value.array.inj heq)

/-- Items are read as records exactly if they are the objects of the records. -/
theorem recordsOfItems_eq_ok_iff {entity : String} {index : Nat} {items : List Value}
    {records : List Record} :
    recordsOfItems entity index items = .ok records ↔ items = records.map .object := by
  induction items generalizing index records with
  | nil => cases records <;> simp [recordsOfItems]
  | cons item items ih =>
    cases item with
    | object record =>
      rw [recordsOfItems]
      cases hrest : recordsOfItems entity (index + 1) items with
      | error e =>
        refine iff_of_false nofun fun heq => ?_
        obtain ⟨record', records, rfl, -, hitems⟩ := List.map_eq_cons_iff.mp heq.symm
        rw [ih.mpr hitems.symm] at hrest
        cases hrest
      | ok rest =>
        rw [Except.ok.injEq, ih.mp hrest]
        cases records with
        | nil => simp
        | cons record' records =>
          have hsame : rest.map Value.object = records.map Value.object ↔ rest = records :=
            ⟨fun heq => recordsValue_injective (congrArg Value.array heq), congrArg _⟩
          simp [hsame]
    | _ => cases records <;> simp [recordsOfItems]

/-- A value is read as the records of an entity exactly if it is the array of their objects. -/
theorem recordsOfValue_eq_ok_iff {entity : String} {v : Value} {records : List Record} :
    recordsOfValue entity v = .ok records ↔ v = recordsValue records := by
  cases v with
  | array items => rw [recordsOfValue, recordsOfItems_eq_ok_iff, recordsValue, Value.array.injEq]
  | _ => simp [recordsOfValue, recordsValue]

/-- The entity of a member. -/
def entityOfMember (m : String × Value) : Except DatasetError (String × List Record) :=
  (recordsOfValue m.1 m.2).map fun records => (m.1, records)

/-- A member is read as an entity exactly if it has its name and the array of its records. -/
theorem entityOfMember_eq_ok_iff {m : String × Value} {entity : String × List Record} :
    entityOfMember m = .ok entity ↔ m = (entity.1, recordsValue entity.2) := by
  simp only [entityOfMember, map_eq_ok_iff, recordsOfValue_eq_ok_iff, Prod.ext_iff]
  constructor
  · rintro ⟨records, hvalue, hname, rfl⟩
    exact ⟨hname, hvalue⟩
  · rintro ⟨hname, hvalue⟩
    exact ⟨entity.2, hvalue, hname, rfl⟩

/-- A member is read as an entity if it holds the array of any records. -/
theorem exists_entityOfMember_eq_ok_iff {m : String × Value} :
    (∃ entity, entityOfMember m = .ok entity) ↔ ∃ records, m.2 = recordsValue records := by
  simp only [entityOfMember_eq_ok_iff]
  constructor
  · rintro ⟨entity, rfl⟩
    exact ⟨entity.2, rfl⟩
  · rintro ⟨records, hvalue⟩
    exact ⟨(m.1, records), Prod.ext rfl hvalue⟩

/-- **Inserting members.**  All members are read as entities, which are inserted one after the other. -/
theorem insertMembers_eq_mapM (d : Dataset) (members : Json.Members) :
    insertMembers d members = (members.mapM entityOfMember).map fun entities =>
      entities.foldl (fun d (entity, records) => d.insert entity records) d := by
  induction members generalizing d with
  | nil => rfl
  | cons member members ih =>
    obtain ⟨entity, v⟩ := member
    rw [insertMembers]
    cases hrecords : recordsOfValue entity v with
    | error e =>
      have hmember : entityOfMember (entity, v) = .error e := by
        rw [entityOfMember, hrecords]
        rfl
      rw [mapM_cons_of_error hmember]
      rfl
    | ok records =>
      have hmember : entityOfMember (entity, v) = .ok (entity, records) := by
        rw [entityOfMember, hrecords]
        rfl
      dsimp only
      rw [mapM_cons_of_ok hmember, ih]
      cases members.mapM entityOfMember <;> rfl

/-- All members are read as entities exactly if they are the members of the entities' value. -/
theorem mapM_entityOfMember_eq_ok_iff {members : Json.Members}
    {entities : List (String × List Record)} :
    members.mapM entityOfMember = .ok entities ↔
      members = entities.map fun (entity, records) => (entity, recordsValue records) := by
  simp only [mapM_eq_ok_iff, entityOfMember_eq_ok_iff]
  rw [← List.forall₂_eq_eq_eq, List.forall₂_map_right_iff]

/-- Entities inserted one after the other. -/
theorem foldl_insert_empty (entities : List (String × List Record)) :
    entities.foldl (fun d (entity, records) => d.insert entity records) empty =
      ⟨Keyed.ofWrites entities⟩ :=
  List.foldl_hom Dataset.mk fun _ _ => rfl

/-- **Reading any value.**  A value is read exactly if it is the object of the arrays of entities, which are
then inserted one after the other. -/
theorem ofValue_eq_ok_iff_ofWrites {v : Value} {d : Dataset} :
    ofValue v = .ok d ↔ ∃ entities, v = toValue ⟨entities⟩ ∧ d = ⟨Keyed.ofWrites entities⟩ := by
  cases v with
  | object members =>
    rw [ofValue, insertMembers_eq_mapM, map_eq_ok_iff]
    refine exists_congr fun entities => ?_
    rw [mapM_entityOfMember_eq_ok_iff, foldl_insert_empty, toValue, Value.object.injEq, eq_comm (a := d)]
  | _ => simp [ofValue, toValue]

/-- A dataset that was read has distinct names. -/
theorem distinctNames_of_ofValue {v : Value} {d : Dataset} (h : ofValue v = .ok d) :
    d.DistinctNames := by
  obtain ⟨entities, -, rfl⟩ := ofValue_eq_ok_iff_ofWrites.mp h
  exact Keyed.nodup_ofWrites entities

/-- An object with distinct names is read as a dataset exactly if it is the value of the dataset. -/
theorem ofValue_object_eq_ok_iff {members : Json.Members} (h : (members.map Prod.fst).Nodup) {d : Dataset} :
    ofValue (.object members) = .ok d ↔ .object members = d.toValue := by
  have hwrites : ∀ entities, Value.object members = toValue ⟨entities⟩ →
      Keyed.ofWrites entities = entities := by
    intro entities hvalue
    obtain rfl := Value.object.inj hvalue
    exact Keyed.ofWrites_of_nodup (by simpa [Function.comp_def] using h)
  rw [ofValue_eq_ok_iff_ofWrites]
  constructor
  · rintro ⟨entities, hvalue, rfl⟩
    rwa [hwrites entities hvalue]
  · intro hvalue
    exact ⟨d.entities, hvalue, by rw [hwrites d.entities hvalue]⟩

/-- **Reading a value.**  A value is read as a dataset exactly if it is the value of the dataset. -/
theorem ofValue_eq_ok_iff {v : Value} (hv : v.WellFormed) {d : Dataset} :
    ofValue v = .ok d ↔ v = d.toValue := by
  cases v with
  | object members => exact ofValue_object_eq_ok_iff hv.1
  | _ => simp [ofValue, toValue]

/-! ## Faults -/

/-- What is wrong with the value of an entity: it is no array, or some item of it is no object, and all
before are. -/
inductive Fault (entity : String) : Value → DatasetError → Prop
  | notAnArray {v : Value} (h : v.kind ≠ .array) : Fault entity v (.entityNotAnArray entity v.kind)
  | notAnObject (records : List Record) {item : Value} (h : item.kind ≠ .object) (items : List Value) :
      Fault entity (.array (records.map .object ++ item :: items))
        (.recordNotAnObject entity records.length item.kind)

/-- Items are refused exactly for the first of them that is no object. -/
theorem recordsOfItems_eq_error_iff {entity : String} {index : Nat} {items : List Value}
    {e : DatasetError} :
    recordsOfItems entity index items = .error e ↔
      ∃ (records : List Record) (item : Value) (rest : List Value),
        items = records.map .object ++ item :: rest ∧ item.kind ≠ .object ∧
          e = .recordNotAnObject entity (index + records.length) item.kind := by
  induction items generalizing index with
  | nil => simp [recordsOfItems]
  | cons item items ih =>
    by_cases hitem : item.kind = .object
    · obtain ⟨record, rfl⟩ : ∃ record, item = .object record := by
        cases item <;> first | exact ⟨_, rfl⟩ | cases hitem
      have hstep : recordsOfItems entity index (.object record :: items) = .error e ↔
          recordsOfItems entity (index + 1) items = .error e := by
        rw [recordsOfItems]
        cases recordsOfItems entity (index + 1) items <;> simp
      rw [hstep, ih]
      constructor
      · rintro ⟨records, item, rest, rfl, hkind, rfl⟩
        refine ⟨record :: records, item, rest, rfl, hkind, ?_⟩
        rw [List.length_cons, Nat.add_right_comm, Nat.add_assoc]
      · rintro ⟨records, item, rest, hsplit, hkind, rfl⟩
        cases records with
        | nil =>
          obtain ⟨rfl, -⟩ := List.cons.inj hsplit
          exact absurd rfl hkind
        | cons record' records =>
          obtain ⟨-, rfl⟩ := List.cons.inj hsplit
          refine ⟨records, item, rest, rfl, hkind, ?_⟩
          rw [List.length_cons, Nat.add_right_comm, Nat.add_assoc]
    · have hstep : recordsOfItems entity index (item :: items) =
          .error (.recordNotAnObject entity index item.kind) := by
        cases item <;> first | rfl | exact absurd rfl hitem
      rw [hstep, Except.error.injEq]
      constructor
      · rintro rfl
        exact ⟨[], item, items, rfl, hitem, rfl⟩
      · rintro ⟨records, item', rest, hsplit, hkind, rfl⟩
        cases records with
        | nil =>
          obtain ⟨rfl, -⟩ := List.cons.inj hsplit
          rfl
        | cons record records =>
          obtain ⟨rfl, -⟩ := List.cons.inj hsplit
          exact absurd rfl hitem

/-- The value of an entity is refused exactly for what is wrong with it. -/
theorem recordsOfValue_eq_error_iff {entity : String} {v : Value} {e : DatasetError} :
    recordsOfValue entity v = .error e ↔ Fault entity v e := by
  constructor
  · intro h
    cases v with
    | array items =>
      obtain ⟨records, item, rest, rfl, hkind, rfl⟩ := recordsOfItems_eq_error_iff.mp h
      rw [Nat.zero_add]
      exact .notAnObject records hkind rest
    | _ =>
      obtain rfl := Except.error.inj h
      exact .notAnArray nofun
  · rintro (hkind | ⟨records, hkind, items⟩)
    · cases v <;> first | rfl | exact absurd rfl hkind
    · exact recordsOfItems_eq_error_iff.mpr ⟨records, _, items, rfl, hkind, by rw [Nat.zero_add]⟩

/-- The value of an entity is that of records, or something is wrong with it. -/
theorem exists_fault_iff {entity : String} {v : Value} :
    (∃ e, Fault entity v e) ↔ ∀ records, v ≠ recordsValue records := by
  have hrecords : ∀ records, recordsOfValue entity v = .ok records ↔ v = recordsValue records :=
    fun _ => recordsOfValue_eq_ok_iff
  simp only [← recordsOfValue_eq_error_iff, ne_eq, ← hrecords]
  cases recordsOfValue entity v <;> simp

/-- **The first fault.**  An object is refused exactly for its first member that is not the array of an
entity's records. -/
theorem ofValue_object_eq_error_iff {members : Json.Members} {e : DatasetError} :
    ofValue (.object members) = .error e ↔
      ∃ before entity v after, members = before ++ (entity, v) :: after ∧
        (∀ m ∈ before, ∃ records, m.2 = recordsValue records) ∧ Fault entity v e := by
  have hfault : ∀ m : String × Value, entityOfMember m = .error e ↔ Fault m.1 m.2 e := fun m => by
    rw [entityOfMember, map_eq_error_iff, recordsOfValue_eq_error_iff]
  rw [ofValue, insertMembers_eq_mapM, map_eq_error_iff, mapM_eq_error_iff]
  simp only [exists_entityOfMember_eq_ok_iff, hfault]
  constructor
  · rintro ⟨before, ⟨entity, v⟩, after, hsplit, hbefore, hfault⟩
    exact ⟨before, entity, v, after, hsplit, hbefore, hfault⟩
  · rintro ⟨before, entity, v, after, hsplit, hbefore, hfault⟩
    exact ⟨before, (entity, v), after, hsplit, hbefore, hfault⟩

/-! ## All values -/

/-- The arrays of records are the arrays of objects. -/
theorem exists_eq_recordsValue_iff {v : Value} :
    (∃ records, v = recordsValue records) ↔
      ∃ items, v = .array items ∧ ∀ item ∈ items, item.kind = .object := by
  constructor
  · rintro ⟨records, rfl⟩
    refine ⟨records.map .object, rfl, ?_⟩
    intro item hitem
    obtain ⟨record, -, rfl⟩ := List.mem_map.mp hitem
    rfl
  · rintro ⟨items, rfl, hitems⟩
    induction items with
    | nil => exact ⟨[], rfl⟩
    | cons item items ih =>
      rw [List.forall_mem_cons] at hitems
      obtain ⟨records, hrecords⟩ := ih hitems.2
      cases item with
      | object record => exact ⟨record :: records, by rw [Value.array.inj hrecords]; rfl⟩
      | _ => cases hitems.1

/-- The members of an object are read as entities exactly if each of them is an array of records. -/
theorem exists_insertMembers_eq_ok_iff {members : Json.Members} (d : Dataset) :
    (∃ d', insertMembers d members = .ok d') ↔ ∀ m ∈ members, ∃ records, m.2 = recordsValue records := by
  simp only [← exists_entityOfMember_eq_ok_iff, ← exists_mapM_eq_ok_iff]
  rw [insertMembers_eq_mapM]
  cases members.mapM entityOfMember <;> simp [Except.map]

/-- Why a value is no dataset: it is no object, or something is wrong with a member of it, and with none
before. -/
inductive FirstFault : Value → DatasetError → Prop
  | root {v : Value} (h : v.kind ≠ .object) : FirstFault v (.notAnObject v.kind)
  | member {before : Json.Members} (hbefore : ∀ m ∈ before, ∃ records, m.2 = recordsValue records)
      {entity : String} {v : Value} {e : DatasetError} (h : Fault entity v e) (after : Json.Members) :
      FirstFault (.object (before ++ (entity, v) :: after)) e

/-- A value is refused exactly for its first fault. -/
theorem ofValue_eq_error_iff {v : Value} {e : DatasetError} :
    ofValue v = .error e ↔ FirstFault v e := by
  constructor
  · intro h
    cases v with
    | object members =>
      obtain ⟨before, entity, v, after, rfl, hbefore, hfault⟩ := ofValue_object_eq_error_iff.mp h
      exact .member hbefore hfault after
    | _ =>
      obtain rfl := Except.error.inj h
      exact .root nofun
  · rintro (hkind | ⟨hbefore, hfault, after⟩)
    · cases v <;> first | rfl | exact absurd rfl hkind
    · exact ofValue_object_eq_error_iff.mpr ⟨_, _, _, after, rfl, hbefore, hfault⟩

/-- **Any value.**  A value is read as a dataset exactly if it is an object of arrays of objects, and what it
is read as is turned back into the value, all in the same order.  Any other value is refused for its first
fault. -/
theorem ofValue_classifies (v : Value) :
    ((∃ d, ofValue v = .ok d) ↔
      ∃ members, v = .object members ∧
        ∀ m ∈ members, ∃ items, m.2 = .array items ∧ ∀ item ∈ items, item.kind = .object) ∧
    (v.WellFormed → ∀ d, ofValue v = .ok d ↔ v = d.toValue) ∧
    ∀ e, ofValue v = .error e ↔ FirstFault v e := by
  refine ⟨?_, fun hv d => ofValue_eq_ok_iff hv, fun e => ofValue_eq_error_iff⟩
  simp only [← exists_eq_recordsValue_iff]
  cases v with
  | object members =>
    rw [show ofValue (.object members) = insertMembers empty members from rfl,
      exists_insertMembers_eq_ok_iff empty]
    simp
  | _ => simp [ofValue]

/-- Two entities, the second without records. -/
theorem ofValue_classifies_posts :
    let v := Value.object [("posts", .array [.object [("title", .string "a")]]), ("authors", .array [])]
    let d : Dataset := ⟨[("posts", [[("title", .string "a")]]), ("authors", [])]⟩
    v.WellFormed ∧ ofValue v = .ok d ∧ d.toValue = v := by
  intro v d
  have hv : v.WellFormed := by
    simp [v, Value.WellFormed, Value.WellFormedItems, Value.WellFormedMembers]
  have hread : v = d.toValue := by decide
  exact ⟨hv, ((ofValue_classifies v).2.1 hv d).mpr hread, hread.symm⟩

/-! ## Reading a text -/

/-- **Reading a text.**  The text of a dataset is read as the dataset, unless it has too many levels. -/
theorem ofText_pretty {d : Dataset} (hd : d.toValue.WellFormed) :
    ofText d.toValue.pretty =
      if d.toValue.depth ≤ Json.nestingLimit then .ok d else .error .unreadable := by
  rw [ofText, Value.parse?_pretty hd]
  by_cases hdepth : d.toValue.depth ≤ Json.nestingLimit
  · rw [if_pos hdepth, if_pos hdepth]
    exact (ofValue_eq_ok_iff hd).mpr rfl
  · rw [if_neg hdepth, if_neg hdepth]

end Dataset

end ContentModel

import ContentModel.Proofs.Payload.Keys

/-
# The order of writes

A record contributes to the data of its payload field by field: texts first, then truth values, then the
members of components, then the placeholders of relations, and within each of these in the order of the
fields.  A key stands where it was contributed first, with the value that was contributed last.

Main statements: `EntitySchema.map_writes` (what is written is what the fields contribute) and
`compileData_ordered_lastWriter`.
-/

namespace ContentModel

/-! ## Contributions -/

/-- What a field contributes to the data of a record, by its type and the kind of the value that the record
holds for it.  A value of any other kind contributes nothing. -/
def Field.contribution (reserved : Reserved) (record : Record) (f : Field) : Json.Members :=
  match f.type, Keyed.get? f.name record with
  | .string, some (.string s) => [(f.name, .string s)]
  | .richText, some (.string s) => [(f.name, .string s)]
  | .boolean, some (.bool true) => [(f.name, .string "true")]
  | .boolean, some (.bool false) => [(f.name, .string "false")]
  | .component, some (.object members) => members.filter fun m => m.1 ∉ reserved.subFields
  | .relation, _ => [(f.name, .object [("id", .null)])]
  | _, _ => []

/-- What the fields of an entity contribute, without reserved ones, in the order of writing. -/
def EntitySchema.contributions (reserved : Reserved) (record : Record) (e : EntitySchema) :
    Json.Members :=
  writeOrder.flatMap fun types =>
    (e.fields.filter fun f => f.type ∈ types ∧ f.name ∉ reserved.fields).flatMap
      (Field.contribution reserved record)

/-! ## Writes -/

section Writes

variable (reserved : Reserved) (record : Record)

/-- A field writes what it contributes. -/
theorem Field.map_writes (f : Field) :
    (f.writes reserved record).map (fun w => (w.key, w.value)) = f.contribution reserved record := by
  unfold writes contribution
  cases htype : f.type with
  | string | richText =>
    simp only [Write.plain?]
    cases Keyed.get? f.name record with
    | none => rfl
    | some v => cases v <;> rfl
  | boolean =>
    simp only [Write.boolean?]
    cases Keyed.get? f.name record with
    | none => rfl
    | some v => cases v with
      | bool b => cases b <;> rfl
      | _ => rfl
  | component =>
    simp only [Write.component]
    cases Keyed.get? f.name record with
    | none => rfl
    | some v => cases v with
      | object members => simp [Reserved.hasSubField, Function.comp_def]
      | _ => rfl
  | _ => rfl

/-- **Contributions.**  What is written of a record is what the entity's fields contribute, in order. -/
theorem EntitySchema.map_writes (e : EntitySchema) :
    ((Partition.of reserved e).writes reserved record).map (fun w => (w.key, w.value)) =
      e.contributions reserved record := by
  rw [writes_eq_flatMap, contributions, List.map_flatMap]
  refine List.flatMap_congr fun types _ => ?_
  rw [List.map_flatMap]
  exact List.flatMap_congr fun f _ => f.map_writes reserved record

end Writes

/-! ## Data -/

/-- **Last writers.**  The keys of a record's data are those that its fields contribute, each of them once,
in the order in which they are contributed first.  Under each stands what is contributed last. -/
theorem compileData_ordered_lastWriter (reserved : Reserved) (e : EntitySchema) (record : Record) :
    let written := e.contributions reserved record
    let data := compileData reserved (Partition.of reserved e) record
    FirstAppearances (data.map Prod.fst) (written.map Prod.fst) ∧
      ∀ key value, (key, value) ∈ data ↔
        ∃ before after, written = before ++ (key, value) :: after ∧ key ∉ after.map Prod.fst := by
  intro written data
  have hdata : data = Keyed.ofWrites written := by
    have hwrites := compileData_eq_ofWrites reserved (Partition.of reserved e) record
    rwa [e.map_writes reserved record] at hwrites
  rw [hdata]
  refine ⟨?_, fun key value => Keyed.mem_ofWrites_iff⟩
  rw [Keyed.map_fst_ofWrites]
  exact Keyed.firstAppearances_extend _

/-- The links of a page replace its title, where that stands, and its number is no text. -/
example :
    let e : EntitySchema := ⟨"pages", [Field.fresh "links" .component, Field.fresh "title" .string,
      Field.fresh "views" .string, Field.fresh "open" .boolean]⟩
    compileData .standard (Partition.of .standard e)
        [("title", .string "A"), ("views", .number (.integer 3)), ("open", .bool true),
          ("links", .object [("id", .string "1"), ("web", .string "a.org"), ("title", .string "B")])] =
      [("title", .string "B"), ("open", .string "true"), ("web", .string "a.org")] := by
  decide

end ContentModel

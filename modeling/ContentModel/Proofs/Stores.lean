import ContentModel.Proofs.Schema.Inference

/-
# Stores of named entries

Datasets and schemas are stores: entries are inserted under names, and looked up by them.  A dataset is
also replaced as a whole, when another one is loaded.  Whatever is done to a store, it holds what a list of
entries leaves that are put one after the other, so everything that it shows is read off the entries inserted
since the last replacement.

Main statements: `Keyed.Store.keeps_of_entries` (what puts leave), `Dataset.Step.run_ofWrites` (one step),
`Dataset.Step.foldl_run_empty` (any steps) and `stores_keep_inserted`.
-/

namespace ContentModel

namespace Keyed

/-! ## Stores -/

/-- A store holds entries, each under its name.  An insertion puts an entry under its name, and looking up a
name shows the value of its entry. -/
structure Store (σ α β : Type) where
  /-- The name of an entry. -/
  name : α → String
  /-- What an entry shows when its name is looked up. -/
  value : α → β
  /-- The entries of a store, in order. -/
  entries : σ → List α
  /-- Looks a name up. -/
  get? : String → σ → Option β
  /-- Inserts an entry under its name. -/
  insert : α → σ → σ
  get?_eq : ∀ n s, get? n s = (find? name n (entries s)).map value
  entries_insert : ∀ x s, entries (insert x s) = upsert name x (entries s)

/-- An insertion of `x` leaves the entries of other names as they are and all names where they are, and
nothing but `x` comes in. -/
structure LeavesOthers {α : Type} (name : α → String) (x : α) (before after : List α) : Prop where
  entry : ∀ (i : Nat) (y : α), before[i]? = some y → name y ≠ name x → after[i]? = some y
  position : ∀ n ∈ before.map name, (after.map name).idxOf n = (before.map name).idxOf n
  mem : ∀ y ∈ after, y = x ∨ y ∈ before ∧ name y ≠ name x

namespace Store

variable {σ α β : Type}

/-- What a store keeps of the entries inserted into it: their names, each of them once and in the order in
which they were inserted first, and under each name what was inserted last.  Another insertion leaves the
entries of other names, and what these show. -/
structure Keeps (S : Store σ α β) (inserted : List α) (s : σ) : Prop where
  distinct : ((S.entries s).map S.name).Nodup
  ordered : FirstAppearances ((S.entries s).map S.name) (inserted.map S.name)
  shown : ∀ n v, S.get? n s = some v ↔ ∃ x, LastPut S.name inserted n x ∧ S.value x = v
  missing : ∀ n, S.get? n s = none ↔ n ∉ inserted.map S.name
  others : ∀ x, LeavesOthers S.name x (S.entries s) (S.entries (S.insert x s))
  apart : ∀ x n, n ≠ S.name x → S.get? n (S.insert x s) = S.get? n s

/-- **Keeping.**  A store whose entries are what puts leave keeps what was put. -/
theorem keeps_of_entries (S : Store σ α β) {inserted : List α} {s : σ}
    (hs : S.entries s = ofPuts S.name inserted) : S.Keeps inserted s := by
  have hdistinct : ((S.entries s).map S.name).Nodup := hs ▸ nodup_map_ofPuts S.name inserted
  refine ⟨hdistinct, ?_, fun n v => ?_, fun n => ?_, fun x => ?_, fun x n hn => ?_⟩
  · rw [hs, map_ofPuts]
    exact firstAppearances_extend _
  · rw [S.get?_eq, hs, Option.map_eq_some_iff]
    simp only [find?_ofPuts_eq_some_iff]
  · rw [S.get?_eq, hs, Option.map_eq_none_iff, find?_eq_none_iff, mem_map_ofPuts_iff]
  · rw [S.entries_insert]
    exact ⟨fun i y hy hne => getElem?_upsert_of_ne hy hne, fun n hn => idxOf_map_upsert hn,
      fun y hy => eq_or_mem_of_mem_upsert hdistinct hy⟩
  · rw [S.get?_eq, S.get?_eq, S.entries_insert, find?_upsert_of_ne S.name x hn]

end Store

end Keyed

/-! ## The two stores -/

/-- A dataset as a store of the records of each entity. -/
def Dataset.store : Keyed.Store Dataset (String × List Record) (List Record) where
  name := Prod.fst
  value := Prod.snd
  entries := Dataset.entities
  get? := Dataset.records?
  insert entry := Dataset.insert entry.1 entry.2
  get?_eq _ _ := rfl
  entries_insert _ _ := rfl

/-- A schema as a store of entities. -/
def Schema.store : Keyed.Store Schema EntitySchema EntitySchema where
  name := EntitySchema.name
  value := id
  entries := Schema.entities
  get? := Schema.entity?
  insert := Schema.insertEntity
  get?_eq _ _ := (Option.map_id_apply).symm
  entries_insert _ _ := rfl

/-! ## Loads -/

namespace Dataset

open Json (Value)

/-- What a dataset can be loaded from. -/
inductive Input where
  | value (v : Value)
  | text (s : String)

namespace Input

/-- The dataset that is read, or why there is none. -/
def read : Input → Except DatasetError Dataset
  | .value v => ofValue v
  | .text s => ofText s

/-- The value of the input, unless it is a text that is no JSON text. -/
def value? : Input → Option Value
  | .value v => some v
  | .text s => Value.parse? s

/-- The objects among the items of an array. -/
def objectsIn : Value → List Record
  | .array items => items.filterMap fun
    | .object record => some record
    | _ => none
  | _ => []

/-- The members of an object, each with the objects in it. -/
def entitiesIn : Value → List (String × List Record)
  | .object members => members.map fun (entity, v) => (entity, objectsIn v)
  | _ => []

/-- The entities of the input, in order. -/
def entities (input : Input) : List (String × List Record) :=
  (input.value?.map entitiesIn).getD []

/-- In the value of entities there are just these. -/
theorem entitiesIn_toValue (entities : List (String × List Record)) :
    entitiesIn (toValue ⟨entities⟩) = entities := by
  have hrecords : ∀ records, objectsIn (recordsValue records) = records := by
    intro records
    rw [recordsValue, objectsIn, List.filterMap_map]
    exact List.filterMap_some
  rw [toValue, entitiesIn, List.map_map]
  simp [Function.comp_def, hrecords]

/-- **Reading.**  A dataset that is read holds the entities of the input, inserted one after the other. -/
theorem eq_ofWrites_of_read {input : Input} {d : Dataset} (h : input.read = .ok d) :
    d = ⟨Keyed.ofWrites input.entities⟩ := by
  obtain ⟨v, hv, hread⟩ : ∃ v, input.value? = some v ∧ ofValue v = .ok d := by
    cases input with
    | value v => exact ⟨v, rfl, h⟩
    | text s =>
      rw [read, ofText] at h
      split at h
      · rename_i v hv
        exact ⟨v, hv, h⟩
      · cases h
  obtain ⟨entities, rfl, rfl⟩ := ofValue_eq_ok_iff_ofWrites.mp hread
  rw [Input.entities, hv, Option.map_some, Option.getD_some, entitiesIn_toValue]

end Input

/-! ## Steps -/

/-- What can be done to a dataset. -/
inductive Step where
  | insert (entity : String) (records : List Record)
  | load (input : Input)

namespace Step

/-- The dataset after a step.  A load replaces it, unless the load fails. -/
def run (d : Dataset) : Step → Dataset
  | .insert entity records => d.insert entity records
  | .load input =>
    match input.read with
    | .ok loaded => loaded
    | .error _ => d

/-- The entities inserted since the last replacement, after one more step.  A replacement starts anew, with the
entities that it inserts. -/
def record (inserted : List (String × List Record)) : Step → List (String × List Record)
  | .insert entity records => inserted ++ [(entity, records)]
  | .load input =>
    match input.read with
    | .ok _ => input.entities
    | .error _ => inserted

/-- The entities inserted since the last replacement, by it and after it. -/
def inserted (steps : List Step) : List (String × List Record) :=
  steps.foldl record []

/-- **One step.**  A dataset that holds what was inserted goes on holding it. -/
theorem run_ofWrites (inserted : List (String × List Record)) (step : Step) :
    run ⟨Keyed.ofWrites inserted⟩ step = ⟨Keyed.ofWrites (record inserted step)⟩ := by
  cases step with
  | insert entity records =>
    rw [run, record, Dataset.insert, Keyed.ofWrites, Keyed.ofWrites, List.foldl_concat]
  | load input =>
    rw [run, record]
    cases hread : input.read with
    | ok loaded =>
      -- The old dataset and what was inserted into it no longer matter.
      exact Input.eq_ofWrites_of_read hread
    | error e => rfl

/-- **Any steps.**  After them a dataset holds what was inserted since the last replacement. -/
theorem foldl_run_empty (steps : List Step) :
    steps.foldl run empty = ⟨Keyed.ofWrites (inserted steps)⟩ := by
  -- From the end, since a replacement is remembered by the steps that follow it.
  induction steps using List.reverseRecOn with
  | nil => rfl
  | append_singleton steps step ih =>
    rw [inserted, List.foldl_concat, List.foldl_concat, ih, run_ofWrites, inserted]

/-- A load that fails leaves the dataset as it was. -/
theorem run_load_of_error {input : Input} {e : DatasetError} (h : input.read = .error e) (d : Dataset) :
    run d (.load input) = d := by
  rw [run, h]

end Step

end Dataset

/-! ## All stores -/

/-- **Stores.**  After any insertions and loads a dataset keeps what was inserted since the last replacement,
and a load that fails leaves it as it was.  After any insertions a schema keeps what was inserted. -/
theorem stores_keep_inserted :
    (∀ steps : List Dataset.Step,
      let d := steps.foldl Dataset.Step.run Dataset.empty
      Dataset.store.Keeps (Dataset.Step.inserted steps) d ∧
        ∀ input e, input.read = .error e → Dataset.Step.run d (.load input) = d) ∧
    ∀ es : List EntitySchema,
      Schema.store.Keeps es (es.foldl (fun s e => s.insertEntity e) Schema.empty) := by
  refine ⟨fun steps => ⟨?_, fun input e hfails => Dataset.Step.run_load_of_error hfails _⟩, fun es => ?_⟩
  · apply Dataset.store.keeps_of_entries
    rw [Dataset.Step.foldl_run_empty]
    rfl
  · apply Schema.store.keeps_of_entries
    rw [Schema.foldl_insertEntity_empty]
    rfl

/-- Posts and authors are loaded in the place of drafts.  A load of notes is refused for the links beside them, so
the notes do not come in either.  The posts that are inserted stand in their old place, the tags at the end. -/
theorem stores_keep_inserted_posts :
    let loaded := Dataset.Input.value (.object [("posts", .array []), ("authors", .array [])])
    let refused := Dataset.Input.value (.object [("notes", .array []), ("links", .bool true)])
    let posts : List Record := [[("title", .string "a")]]
    let steps : List Dataset.Step :=
      [.insert "drafts" [], .load loaded, .load refused, .insert "tags" [], .insert "posts" posts]
    let d := steps.foldl Dataset.Step.run Dataset.empty
    refused.read = .error (.entityNotAnArray "links" .boolean) ∧
      Dataset.Step.run d (.load refused) = d ∧
      d.entities.map Prod.fst = ["posts", "authors", "tags"] ∧ d.records? "posts" = some posts ∧
      d.records? "drafts" = none ∧ d.records? "notes" = none := by
  intro loaded refused posts steps d
  have hrefused : refused.read = .error (.entityNotAnArray "links" .boolean) := rfl
  have hinserted : Dataset.Step.inserted steps =
      [("posts", []), ("authors", []), ("tags", []), ("posts", posts)] := rfl
  obtain ⟨hkeeps, hload⟩ := stores_keep_inserted.1 steps
  rw [hinserted] at hkeeps
  refine ⟨hrefused, hload refused _ hrefused, by decide, ?_, ?_, ?_⟩
  · exact (hkeeps.shown "posts" posts).mpr
      ⟨("posts", posts), ⟨[("posts", []), ("authors", []), ("tags", [])], [], rfl, rfl, by simp⟩, rfl⟩
  · exact (hkeeps.missing "drafts").mpr (by decide)
  · exact (hkeeps.missing "notes").mpr (by decide)

end ContentModel

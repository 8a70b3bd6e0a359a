import ContentModel.Command.Compile
import ContentModel.Command.Export
import ContentModel.Command.Infer
import ContentModel.Proofs.Command.Basic
import ContentModel.Proofs.Schema.Codec
import ContentModel.Proofs.Schema.Components

/-
# Running with a saved schema

An inferred schema has few levels, since components are looked into once only, so the file that it is saved
to reads back as the schema.  A command that is given that file runs on the same schema as one that infers
it, and does the same from then on.

Main statements: `loadSchema_of_read` (reading a schema from a file) and `runs_with_savedSchema_eq` (running
with the file of an inferred schema).
-/

namespace ContentModel

/-! ## Levels of an inferred schema -/

/-- Fields have sub-fields and these have none, so the text of an inferred schema has few levels. -/
theorem Schema.depth_toValue_infer (settings : InferenceSettings) (d : Dataset) :
    (infer settings d).toValue.depth ≤ Json.nestingLimit := by
  have hlevels : (infer settings d).toValue.depth ≤ 8 := by
    refine depth_toValue_le_iff.mpr fun e he => EntitySchema.depth_toValue_le_iff.mpr fun f hf => ?_
    obtain ⟨name, records, rfl⟩ := exists_of_mem_infer he
    have hcomponents := EntitySchema.describesComponents_infer settings name records hf
    refine Field.depth_toValue_le_iff.mpr fun g hg => Field.depth_toValue_le_iff.mpr ?_
    rw [(hcomponents.subFields g hg).2]
    exact List.forall_mem_nil _
  exact hlevels.trans (by decide)

namespace Command

/-! ## The file of a saved schema -/

/-- A file with the text of a schema reads back as the schema, unless it has too many levels. -/
theorem loadSchema_of_read {path : String} {files : Files.Tree} {s : Schema}
    (hpath : isYamlPath path = false) (h : files.read path = .ok s.json) :
    loadSchema path files =
      if s.toValue.depth ≤ Json.nestingLimit then .ok s else .error (.notASchema path) := by
  have hread : Schema.ofFileText? path s.json =
      if s.toValue.depth ≤ Json.nestingLimit then some s else none := by
    rw [Schema.ofFileText?, hpath, if_neg Bool.false_ne_true, s.ofJson?_json]
  rw [loadSchema, h]
  dsimp only
  rw [hread]
  by_cases hdepth : s.toValue.depth ≤ Json.nestingLimit
  · rw [if_pos hdepth, if_pos hdepth]
  · rw [if_neg hdepth, if_neg hdepth]

section Saved

variable {args : InferArguments} {env : Environment} {path : String}

/-- Saving a schema writes its text to the file. -/
theorem infer_saves (hformat : args.format = "json") (houtput : args.output = some path)
    (hok : (infer args env).result = .ok ()) :
    ∃ d, loadDataset args.dataset env.files = .ok d ∧
      let output := writeOutput (some path)
        (Schema.infer { env.settings.inference with sampleSize := args.sampleSize } d).json env.files
      output.result = .ok () ∧ (infer args env).files = output.files := by
  rw [infer] at hok ⊢
  cases hload : loadDataset args.dataset env.files with
  | error e =>
    rw [hload] at hok
    cases hok
  | ok d =>
    rw [hload, hformat, houtput] at hok
    rw [hformat, houtput]
    exact ⟨d, rfl, hok, rfl⟩

/-- **The saved schema.**  The file of a schema inferred from all records reads back as the schema that
commands infer from the dataset. -/
theorem loadSchema_infer (hsample : args.sampleSize = 0) (hformat : args.format = "json")
    (houtput : args.output = some path) (hpath : isYamlPath path = false)
    (hok : (infer args env).result = .ok ()) :
    ∃ d, loadDataset args.dataset env.files = .ok d ∧
      loadSchema path (infer args env).files = .ok (Schema.infer env.settings.inference d) := by
  obtain ⟨d, hload, hsaved, hfiles⟩ := infer_saves hformat houtput hok
  have hread := read_writeOutput hsaved
  rw [← hfiles, hsample] at hread
  refine ⟨d, hload, (loadSchema_of_read hpath hread).trans (if_pos ?_)⟩
  exact Schema.depth_toValue_infer _ d

/-- Saving a schema leaves the dataset, unless it is written over it. -/
theorem read_infer_of_ne (hformat : args.format = "json") (houtput : args.output = some path)
    (hok : (infer args env).result = .ok ()) {p : Files.Path} (htarget : env.files.target path = .ok p)
    (hne : env.files.resolve args.dataset ≠ .ok p) :
    (infer args env).files.read args.dataset = env.files.read args.dataset := by
  obtain ⟨d, hload, hsaved, hfiles⟩ := infer_saves hformat houtput hok
  obtain ⟨text, htext⟩ := exists_read_of_loadDataset hload
  rw [hfiles, htext]
  exact read_writeOutput_of_ne hsaved htarget hne htext

end Saved

/-! ## Commands that run on one schema -/

/-- Without a schema, what is inferred from the dataset is exported. -/
theorem exportedSchema_of_loadDataset {data : String} {env : Environment} {d : Dataset}
    (h : loadDataset data env.files = .ok d) (outDir : String) :
    exportedSchema ⟨some data, none, outDir⟩ env = .ok (Schema.infer env.settings.inference d) := by
  simp only [exportedSchema, h]
  rfl

/-- What is exported depends on the schema, the root and what stands there. -/
theorem exportDefinitions_congr {args args' : ExportArguments} {env : Environment}
    (hroot : args.outDir = args'.outDir) (h : exportedSchema args env = exportedSchema args' env) :
    exportDefinitions args env = exportDefinitions args' env := by
  rw [exportDefinitions, exportDefinitions, h, hroot]

/-- What is compiled depends on the dataset and the schema, and no file is written. -/
theorem compileDataset_congr {data data' : String} {schema schema' : Option String} {submit strict : Bool}
    {env : Environment} {files : Files.Tree} {d : Dataset}
    (hdata : loadDataset data files = .ok d) (hdata' : loadDataset data' env.files = .ok d)
    (h : chooseSchema schema d { env with files } = chooseSchema schema' d env) :
    compileDataset ⟨data, schema, submit, strict⟩ { env with files } =
      { compileDataset ⟨data', schema', submit, strict⟩ env with files } := by
  rw [compileDataset, compileDataset, hdata, hdata']
  dsimp only
  rw [h]
  cases chooseSchema schema' d env with
  | error e => rfl
  | ok s =>
    dsimp only
    rw [afterCompiling, afterCompiling]
    split
    · rfl
    · split <;> rfl

/-- **Saved schemas.**  The text that a schema is saved with reads back as the schema, unless it has too
many levels.  A command that is given the file of a schema inferred from all records does the same as one
that infers the schema itself, from any file that holds the dataset; its own file still does, unless the
schema was written over it. -/
theorem runs_with_savedSchema_eq :
    (∀ (s : Schema) (path content : String) (files : Files.Tree), isYamlPath path = false →
      formatSchema "json" s = .ok content → files.read path = .ok content →
      loadSchema path files =
        if s.toValue.depth ≤ Json.nestingLimit then .ok s else .error (.notASchema path)) ∧
    ∀ (args : InferArguments) (env : Environment) (path : String), args.sampleSize = 0 →
      args.format = "json" → args.output = some path → isYamlPath path = false →
      (infer args env).result = .ok () →
      let saved := { env with files := (infer args env).files }
      (∀ dataset outDir, exportedSchema ⟨dataset, some path, outDir⟩ saved =
        exportedSchema ⟨some args.dataset, none, outDir⟩ env) ∧
      (∀ p, env.files.target path = .ok p → env.files.resolve args.dataset ≠ .ok p →
        saved.files.read args.dataset = env.files.read args.dataset) ∧
      ∀ data, saved.files.read data = env.files.read args.dataset →
        (∀ dataset outDir, exportDefinitions ⟨dataset, some path, outDir⟩ saved =
          exportDefinitions ⟨some data, none, outDir⟩ saved) ∧
        ∀ submit strict,
          compileDataset ⟨data, some path, submit, strict⟩ saved =
              compileDataset ⟨data, none, submit, strict⟩ saved ∧
            compileDataset ⟨data, some path, submit, strict⟩ saved =
              { compileDataset ⟨args.dataset, none, submit, strict⟩ env with files := saved.files } := by
  refine ⟨fun s path content files hpath hformat hread => ?_, ?_⟩
  · obtain rfl := Except.ok.inj hformat
    exact loadSchema_of_read hpath hread
  intro args env path hsample hformat houtput hpath hok saved
  obtain ⟨d, hload, hschema⟩ := loadSchema_infer hsample hformat houtput hpath hok
  have hvia : ∀ dataset outDir, exportedSchema ⟨dataset, some path, outDir⟩ saved =
      .ok (Schema.infer env.settings.inference d) := fun _ _ => hschema
  have hchosen : chooseSchema (some path) d saved = chooseSchema none d env := hschema
  refine ⟨fun dataset outDir => ?_,
    fun p htarget hne => read_infer_of_ne hformat houtput hok htarget hne, fun data hread => ?_⟩
  · rw [hvia, exportedSchema_of_loadDataset hload]
  have hdata : loadDataset data saved.files = .ok d := loadDataset_of_read_eq hread hload
  refine ⟨fun dataset outDir => exportDefinitions_congr rfl ?_, fun submit strict => ⟨?_, ?_⟩⟩
  · rw [hvia, exportedSchema_of_loadDataset hdata]
  · exact (compileDataset_congr hdata hload hchosen).trans (compileDataset_congr hdata hload rfl).symm
  · exact compileDataset_congr hdata hload hchosen

/-- Notes, of which the first has an author with two parts. -/
def notes : Dataset :=
  ⟨[("notes", [[("title", .string "a"), ("due", .string "2024-01-01"),
      ("author", .object [("id", .number (.integer 1)), ("name", .string "Ann")])], [("title", .string "b")]]),
    ("tags", [[("label", .string "x")]])]⟩

/-- Notes in a file, and no network. -/
def notesEnvironment : Environment where
  files := ⟨.directory [("notes.json", .file notes.toValue.pretty)]⟩
  network := .offline
  settings := .standard

/-- The schema of the notes, into another file. -/
def saveNotesSchema : InferArguments where
  dataset := "notes.json"
  sampleSize := 0
  format := "json"
  output := some "schema.json"

/-- A schema with two entities of one name, and with parts of parts. -/
def nestedSchema : Schema :=
  ⟨[⟨"notes", [.fresh "title" .string, ⟨"author", .component, true, false,
      [.fresh "name" .string, ⟨"address", .component, false, true, [.fresh "city" .string]⟩]⟩]⟩,
    ⟨"notes", []⟩]⟩

/-- The text of a schema with parts of parts reads back, and notes are exported and compiled with the file of
their schema as they are without. -/
theorem runs_with_savedSchema_eq_notes :
    loadSchema "nested.json" ⟨.directory [("nested.json", .file nestedSchema.json)]⟩ = .ok nestedSchema ∧
      (infer saveNotesSchema notesEnvironment).result = .ok () ∧
      let saved := { notesEnvironment with files := (infer saveNotesSchema notesEnvironment).files }
      saved.files.read "notes.json" = notesEnvironment.files.read "notes.json" ∧
        loadSchema "schema.json" saved.files = .ok (.infer Settings.standard.inference notes) ∧
        exportDefinitions ⟨none, some "schema.json", "."⟩ saved =
          exportDefinitions ⟨some "notes.json", none, "."⟩ saved ∧
        compileDataset ⟨"notes.json", some "schema.json", true, true⟩ saved =
          compileDataset ⟨"notes.json", none, true, true⟩ saved := by
  have hformed : notes.toValue.WellFormed := by
    simp [notes, Dataset.toValue, Dataset.recordsValue, Json.Value.WellFormed, Json.Value.WellFormedItems,
      Json.Value.WellFormedMembers, Json.Number.WellFormed]
  have hload : loadDataset "notes.json" notesEnvironment.files = .ok notes :=
    (loadDataset_of_read hformed rfl).trans (if_pos (by decide +kernel))
  have hok : (infer saveNotesSchema notesEnvironment).result = .ok () := by
    rw [infer, show saveNotesSchema.dataset = "notes.json" from rfl, hload]
    decide +kernel
  obtain ⟨hreads, hruns⟩ := runs_with_savedSchema_eq
  obtain ⟨hschema, hkept, hsame⟩ :=
    hruns saveNotesSchema notesEnvironment "schema.json" rfl rfl rfl (by decide +kernel) hok
  have hread := hkept ["schema.json"] (by decide +kernel) (by decide +kernel)
  obtain ⟨hexport, hcompile⟩ := hsame "notes.json" hread
  have hinferred := (hschema none ".").trans (exportedSchema_of_loadDataset hload ".")
  refine ⟨?_, hok, hread, hinferred, hexport none ".", (hcompile true true).1⟩
  exact (hreads nestedSchema "nested.json" nestedSchema.json _ (by decide +kernel) rfl rfl).trans
    (if_pos (by decide +kernel))

end Command

end ContentModel

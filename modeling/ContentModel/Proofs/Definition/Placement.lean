import ContentModel.Command.Export
import ContentModel.Proofs.Definition.Writing
import ContentModel.Proofs.Json.Strings
import ContentModel.Proofs.Schema.Names

/-
# Which exported documents are kept

The place of an entity's document is named for the singular of the entity's name, and that of a
component's document for the field alone.  Two entities may have the same singular, and two entities may
have component fields of the same name; then their documents have the same place, and an export that
succeeds leaves only the last of them.

Main statements: `names_eq_iff_of_mem_exportSchema` (which documents have the same place) and
`exportDefinitions_keeps_iff` (when an export keeps every document).
-/

namespace ContentModel.Definition

open Files

/-! ## The documents of a schema -/

/-- The fields of an entity that have a document of their own. -/
def componentFields (settings : ExportSettings) (e : EntitySchema) : List Field :=
  (exportedFields settings e).filter fun f => f.type = .component

/-- The documents of a schema are those of its entities and of their component fields. -/
theorem mem_exportSchema_iff {settings : ExportSettings} {s : Schema} {d : Document} :
    d ∈ exportSchema settings s ↔ ∃ e ∈ s.entities, d = entityDocument settings e ∨
      ∃ f ∈ componentFields settings e, d = componentDocument settings e.name f := by
  simp only [exportSchema, exportEntity, List.mem_flatMap, List.mem_cons, List.mem_map, componentFields,
    eq_comm]

section Places

variable (settings : ExportSettings)

/-- The documents of two entities have the same place exactly if the entities have the same singular. -/
theorem names_entityDocument_eq_iff (e e' : EntitySchema) :
    (entityDocument settings e).names = (entityDocument settings e').names ↔
      singular e.name = singular e'.name := by
  simp [Document.names, entityDocument, Document.directory]

/-- The documents of two component fields have the same place exactly if the fields have the same
name. -/
theorem names_componentDocument_eq_iff (entity entity' : String) (f f' : Field) :
    (componentDocument settings entity f).names = (componentDocument settings entity' f').names ↔
      f.name = f'.name := by
  simp only [Document.names, componentDocument, Document.directory, List.cons_append, List.nil_append,
    List.cons.injEq, and_true, true_and]
  constructor
  · exact And.left
  · intro h
    exact ⟨h, by rw [h]⟩

/-- The document of an entity and that of a component never have the same place. -/
theorem names_entityDocument_ne (e : EntitySchema) (entity : String) (f : Field) :
    (entityDocument settings e).names ≠ (componentDocument settings entity f).names := by
  simp [Document.names, entityDocument, componentDocument, Document.directory]

end Places

/-! ## The texts of entities' documents -/

/-- Entities of different names have documents of different texts. -/
theorem name_eq_of_text_entityDocument {settings : ExportSettings} {e e' : EntitySchema}
    (h : (entityDocument settings e).text = (entityDocument settings e').text) : e.name = e'.name :=
  Json.Value.eq_of_pretty_object h

/-! ## Documents that stay apart -/

/-- The entities of a schema have different singulars, and component fields of the same name have the
same definition. -/
structure KeepsApart (settings : ExportSettings) (s : Schema) : Prop where
  entities : ∀ e ∈ s.entities, ∀ e' ∈ s.entities, singular e.name = singular e'.name → e = e'
  components : ∀ e ∈ s.entities, ∀ e' ∈ s.entities, ∀ f ∈ componentFields settings e,
    ∀ f' ∈ componentFields settings e', f.name = f'.name →
      (componentDocument settings e.name f).text = (componentDocument settings e'.name f').text

/-- Where names are distinct, documents of the same place have the same text exactly if the schema keeps
them apart. -/
theorem forall_text_eq_iff_keepsApart {settings : ExportSettings} {s : Schema}
    (hs : s.DistinctNames) :
    (∀ d ∈ exportSchema settings s, ∀ d' ∈ exportSchema settings s,
        d.names = d'.names → d.text = d'.text) ↔ KeepsApart settings s := by
  constructor
  · intro h
    constructor
    · intro e he e' he' hsingular
      have htext := h _ (mem_exportSchema_iff.mpr ⟨e, he, Or.inl rfl⟩) _
        (mem_exportSchema_iff.mpr ⟨e', he', Or.inl rfl⟩)
        ((names_entityDocument_eq_iff settings e e').mpr hsingular)
      exact List.inj_on_of_nodup_map hs.entities he he' (name_eq_of_text_entityDocument htext)
    · intro e he e' he' f hf f' hf' hname
      exact h _ (mem_exportSchema_iff.mpr ⟨e, he, Or.inr ⟨f, hf, rfl⟩⟩) _
        (mem_exportSchema_iff.mpr ⟨e', he', Or.inr ⟨f', hf', rfl⟩⟩)
        ((names_componentDocument_eq_iff settings e.name e'.name f f').mpr hname)
  · intro h d hd d' hd' hnames
    obtain ⟨e, he, rfl | ⟨f, hf, rfl⟩⟩ := mem_exportSchema_iff.mp hd <;>
      obtain ⟨e', he', rfl | ⟨f', hf', rfl⟩⟩ := mem_exportSchema_iff.mp hd'
    · rw [h.entities e he e' he' ((names_entityDocument_eq_iff settings e e').mp hnames)]
    · exact absurd hnames (names_entityDocument_ne settings e e'.name f')
    · exact absurd hnames.symm (names_entityDocument_ne settings e' e.name f)
    · exact h.components e he e' he' f hf f' hf'
        ((names_componentDocument_eq_iff settings e.name e'.name f f').mp hnames)

end ContentModel.Definition

namespace ContentModel.Command

open Definition Files

/-! ## Exports -/

/-- An export that succeeds has written the documents of its schema, one after the other. -/
theorem writeAll_of_exportDefinitions {args : ExportArguments} {env : Environment} {s : Schema}
    (hschema : exportedSchema args env = .ok s) (hok : (exportDefinitions args env).result = .ok ()) :
    writeAll args.outDir (exportSchema env.settings.exporting s) env.files =
      (.ok (), (exportDefinitions args env).files) := by
  rw [exportDefinitions, hschema] at hok ⊢
  dsimp only at hok ⊢
  rw [writeDocuments] at hok ⊢
  cases hplaces : checkPlaces (exportSchema env.settings.exporting s) with
  | error e => simp [hplaces, Outcome.failed] at hok
  | ok _ =>
    rw [hplaces] at hok
    dsimp only at hok ⊢
    cases hwrite : writeAll args.outDir (exportSchema env.settings.exporting s) env.files with
    | mk result files =>
      cases result with
      | error e => simp [hwrite, Outcome.failed] at hok
      | ok _ => rfl

/-- The document is in its file below a root. -/
def Kept (root : String) (t : Tree) (d : Document) : Prop :=
  ∃ path, d.relativePath = .ok path ∧ t.read (below root path) = .ok d.text

section Export

variable {args : ExportArguments} {env : Environment} {s : Schema}
  (hschema : exportedSchema args env = .ok s) (hok : (exportDefinitions args env).result = .ok ())

include hschema hok

/-- Every document of an export that succeeds has a path. -/
theorem relativePath_of_exportDefinitions :
    ∀ d ∈ exportSchema env.settings.exporting s, d.relativePath = .ok (joinPath d.names) :=
  fun d hd => Document.relativePath_eq_ok_iff.mpr
    ⟨hasPlace_of_writeAll (writeAll_of_exportDefinitions hschema hok) d hd, rfl⟩

/-- Every document of an export that succeeds is kept exactly if documents of the same place have the
same text. -/
theorem forall_kept_iff :
    (∀ d ∈ exportSchema env.settings.exporting s,
        Kept args.outDir (exportDefinitions args env).files d) ↔
      ∀ d ∈ exportSchema env.settings.exporting s, ∀ d' ∈ exportSchema env.settings.exporting s,
        d.names = d'.names → d.text = d'.text := by
  rw [← forall_read_writeAll_iff (writeAll_of_exportDefinitions hschema hok)]
  refine forall₂_congr fun d hd => ?_
  simp [Kept, relativePath_of_exportDefinitions hschema hok d hd]

end Export

/-- **What an export leaves.**  After an export that succeeds, the file at the path of a document holds
the text of the last document of that path.  So every document is kept exactly if documents of the same
path have the same text; and where names are distinct, exactly if the entities have different singulars
and component fields of the same name have the same definition. -/
theorem exportDefinitions_keeps_iff {args : ExportArguments} {env : Environment} {s : Schema}
    (hs : s.DistinctNames) (hschema : exportedSchema args env = .ok s)
    (hok : (exportDefinitions args env).result = .ok ()) :
    let documents := exportSchema env.settings.exporting s
    let files := (exportDefinitions args env).files
    (∀ d ∈ documents, ∃ path before last after, d.relativePath = .ok path ∧
      documents = before ++ last :: after ∧ last.relativePath = .ok path ∧
      (∀ d' ∈ after, d'.relativePath ≠ .ok path) ∧
      files.read (below args.outDir path) = .ok last.text) ∧
    ((∀ d ∈ documents, Kept args.outDir files d) ↔
      ∀ d ∈ documents, ∀ d' ∈ documents, d.relativePath = d'.relativePath → d.text = d'.text) ∧
    ((∀ d ∈ documents, Kept args.outDir files d) ↔ KeepsApart env.settings.exporting s) := by
  intro documents files
  have hrun : writeAll args.outDir documents env.files = (.ok (), files) :=
    writeAll_of_exportDefinitions hschema hok
  have hpath := relativePath_of_exportDefinitions hschema hok
  have hnames : ∀ d ∈ documents, ∀ d' ∈ documents,
      d.relativePath = d'.relativePath ↔ d.names = d'.names := by
    intro d hd d' hd'
    have hplace := (Document.relativePath_eq_ok_iff.mp (hpath d hd)).1
    have hplace' := (Document.relativePath_eq_ok_iff.mp (hpath d' hd')).1
    rw [hpath d hd, hpath d' hd', Except.ok.injEq]
    exact ⟨joinPath_injective d.names_ne_nil d'.names_ne_nil (Document.isName_of_mem_names hplace)
      (Document.isName_of_mem_names hplace'), congrArg joinPath⟩
  have hall := forall_kept_iff hschema hok
  refine ⟨fun d hd => ?_, ?_, hall.trans (forall_text_eq_iff_keepsApart hs)⟩
  · obtain ⟨before, last, after, hsplit, hsame, hafter⟩ := exists_last_of_mem hd
    have hmem : ∀ d' ∈ last :: after, d' ∈ documents := fun d' hd' =>
      hsplit ▸ List.mem_append_right before hd'
    rw [hsplit] at hrun
    refine ⟨joinPath d.names, before, last, after, hpath d hd, hsplit, ?_, fun d' hd' heq => ?_, ?_⟩
    · rw [hpath last (hmem last List.mem_cons_self), hsame]
    · rw [← hpath d hd, hnames d' (hmem d' (List.mem_cons_of_mem last hd')) d hd] at heq
      exact hafter d' hd' heq
    · rw [← hsame]
      exact read_writeAll_of_last hrun (by rw [hsame]; exact hafter)
  · rw [hall]
    exact forall₂_congr fun d hd => forall₂_congr fun d' hd' => by rw [hnames d hd d' hd']

/-- The text of a schema with two entities, which have no fields. -/
def twoEntities (name name' : String) : String :=
  "\x7b\"entities\":[\x7b\"name\":\"" ++ name ++ "\",\"fields\":[]\x7d,\x7b\"name\":\"" ++ name' ++
    "\",\"fields\":[]\x7d]\x7d"

/-- An environment in which a file has the schema of two entities, and no other file is there. -/
def twoEntitiesEnvironment (name name' : String) : Environment where
  files := ⟨.directory [("schema.json", .file (twoEntities name name'))]⟩
  network := .offline
  settings := .standard

/-- The schema of that file is exported to a directory that is not there yet. -/
def exportToNew : ExportArguments :=
  ⟨none, some "schema.json", "out"⟩

/-- Tags and categories have different singulars, and both documents are kept. -/
theorem exportDefinitions_keeps_iff_categories :
    let env := twoEntitiesEnvironment "tags" "categories"
    let s : Schema := ⟨[⟨"tags", []⟩, ⟨"categories", []⟩]⟩
    s.DistinctNames ∧ exportedSchema exportToNew env = .ok s ∧
      (exportDefinitions exportToNew env).result = .ok () ∧
      KeepsApart env.settings.exporting s ∧
      ∀ d ∈ exportSchema env.settings.exporting s,
        Kept "out" (exportDefinitions exportToNew env).files d := by
  intro env s
  have hs : s.DistinctNames := by decide
  have hschema : exportedSchema exportToNew env = .ok s := by decide +kernel
  have hok : (exportDefinitions exportToNew env).result = .ok () := by decide +kernel
  have hapart : KeepsApart env.settings.exporting s := ⟨by decide +kernel, by decide +kernel⟩
  exact ⟨hs, hschema, hok, hapart, (exportDefinitions_keeps_iff hs hschema hok).2.2.mpr hapart⟩

/-- Posts and a post have the same singular: the document of the posts is lost, although their names are
distinct and the export succeeds. -/
theorem not_kept_of_same_singular :
    let env := twoEntitiesEnvironment "posts" "post"
    let s : Schema := ⟨[⟨"posts", []⟩, ⟨"post", []⟩]⟩
    s.DistinctNames ∧ exportedSchema exportToNew env = .ok s ∧ env.files.has "out" = false ∧
      (exportDefinitions exportToNew env).result = .ok () ∧
      ¬ ∀ d ∈ exportSchema env.settings.exporting s,
        Kept "out" (exportDefinitions exportToNew env).files d := by
  intro env s
  have hs : s.DistinctNames := by decide
  have hschema : exportedSchema exportToNew env = .ok s := by decide +kernel
  have hok : (exportDefinitions exportToNew env).result = .ok () := by decide +kernel
  refine ⟨hs, hschema, by decide +kernel, hok, fun hkept => ?_⟩
  have hapart := (forall_text_eq_iff_keepsApart hs).mp ((forall_kept_iff hschema hok).mp hkept)
  exact absurd (hapart.entities ⟨"posts", []⟩ (by decide) ⟨"post", []⟩ (by decide) (by decide))
    (by decide)

end ContentModel.Command

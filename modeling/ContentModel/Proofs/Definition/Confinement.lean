import ContentModel.Proofs.Definition.Placement

/-
# Where an export writes

The names of documents come from the names of entities and fields, which may hold anything.  An export
looks at all of them before it writes: if one cannot be a name in a directory, nothing is touched, and
otherwise no file is written but below the directories for definitions, wherever the export stops.

Main statements: `checkPlaces_eq_error` (which names are refused), `definitionPlace_names` and
`hint_eq_of_mem_exportSchema` (where documents belong), and `exportDefinitions_confined`.
-/

namespace ContentModel.Definition

open Files

/-! ## Bad names -/

/-- The name is empty, stands for a directory that is already there, or holds a character that no name in
a directory may hold. -/
def BadName (name : String) : Prop :=
  name = "" ∨ name = "." ∨ name = ".." ∨ '/' ∈ name.toList ∨ '\\' ∈ name.toList ∨ '\x00' ∈ name.toList

instance (name : String) : Decidable (BadName name) :=
  inferInstanceAs (Decidable (_ ∨ _))

/-- All names but the bad ones are single segments of a path. -/
theorem isSegment_eq_false_iff {name : String} : isSegment name = false ↔ BadName name := by
  have hall : (name.toList.all fun c => c != '/' && c != '\\' && c != '\x00') = false ↔
      '/' ∈ name.toList ∨ '\\' ∈ name.toList ∨ '\x00' ∈ name.toList := by
    rw [List.all_eq_false]
    constructor
    · rintro ⟨c, hc, hbad⟩
      by_cases hslash : c = '/'
      · exact Or.inl (hslash ▸ hc)
      · by_cases hbackslash : c = '\\'
        · exact Or.inr (Or.inl (hbackslash ▸ hc))
        · have hnul : c = '\x00' := by
            simpa [hslash, hbackslash] using hbad
          exact Or.inr (Or.inr (hnul ▸ hc))
    · rintro (h | h | h)
      · exact ⟨'/', h, by decide⟩
      · exact ⟨'\\', h, by decide⟩
      · exact ⟨'\x00', h, by decide⟩
  simp only [isSegment, Bool.and_eq_false_iff, hall, bne_eq_false_iff_eq, BadName, or_assoc]

theorem isSegment_iff {name : String} : isSegment name = true ↔ ¬ BadName name := by
  rw [← isSegment_eq_false_iff, Bool.not_eq_false]

/-- A document has a place if its names are not bad. -/
theorem Document.hasPlace_iff {d : Document} :
    d.HasPlace ↔ ¬ BadName d.name ∧ ¬ BadName d.fileName := by
  rw [HasPlace, isSegment_iff, isSegment_iff]

/-- A document without a place is refused for one of its names. -/
theorem Document.place_eq_error {d : Document} {e : WriteError} (h : d.place = .error e) :
    ∃ name, e = .invalidName name ∧ BadName name ∧ (name = d.name ∨ name = d.fileName) := by
  rw [Document.place, segment, segment] at h
  cases hname : isSegment d.name with
  | false =>
    rw [hname] at h
    exact ⟨d.name, (Except.error.inj h).symm, isSegment_eq_false_iff.mp hname, Or.inl rfl⟩
  | true =>
    cases hfile : isSegment d.fileName with
    | false =>
      rw [hname, hfile] at h
      exact ⟨d.fileName, (Except.error.inj h).symm, isSegment_eq_false_iff.mp hfile, Or.inr rfl⟩
    | true =>
      rw [hname, hfile] at h
      cases h

/-! ## The places of definitions -/

/-- The names, from the root of a project down, that lead to a definition. -/
inductive DefinitionPlace : Path → Prop
  | entity {name : String} : ¬ BadName name →
      DefinitionPlace ["src", "api", name, "content-types", name, "schema.json"]
  | component {name : String} : ¬ BadName name →
      DefinitionPlace ["src", "components", name, name ++ ".json"]

section Documents

variable {settings : ExportSettings} {s : Schema} {d : Document} (h : d ∈ exportSchema settings s)

include h

/-- The documents of a schema belong where definitions do, if they have a place. -/
theorem definitionPlace_names (hplace : d.HasPlace) : DefinitionPlace d.names := by
  have hname := (Document.hasPlace_iff.mp hplace).1
  obtain ⟨e, -, rfl | ⟨f, -, rfl⟩⟩ := mem_exportSchema_iff.mp h
  · exact .entity hname
  · exact .component hname

/-- The hint of a document announces its place. -/
theorem hint_eq_of_mem_exportSchema : d.hint = "Place in " ++ joinPath d.names := by
  obtain ⟨e, -, rfl | ⟨f, -, rfl⟩⟩ := mem_exportSchema_iff.mp h
  · simp [entityDocument, Document.names, Document.directory, joinPath,
      String.intercalate_cons_of_ne_nil, ← String.toList_inj]
  · simp [componentDocument, Document.names, Document.directory, joinPath,
      String.intercalate_cons_of_ne_nil, ← String.toList_inj]

end Documents

end ContentModel.Definition

namespace ContentModel.Command

open Definition Files

/-! ## Exports -/

theorem checkPlaces_cons (d : Document) (ds : List Document) :
    checkPlaces (d :: ds) = d.place >>= fun _ => checkPlaces ds := by
  show (d.place.map fun _ => ()) >>= (fun _ => checkPlaces ds) = _
  cases d.place <;> rfl

/-- All places are there exactly if every document has one. -/
theorem checkPlaces_eq_ok_iff {ds : List Document} :
    checkPlaces ds = .ok () ↔ ∀ d ∈ ds, d.HasPlace := by
  induction ds with
  | nil => simp [checkPlaces, pure, Except.pure]
  | cons d ds ih =>
    rw [checkPlaces_cons, bind_eq_ok_iff, ih, List.forall_mem_cons, exists_and_right]
    refine and_congr_left' ⟨?_, fun hd => ⟨_, Document.place_eq_ok_iff.mpr ⟨hd, rfl⟩⟩⟩
    rintro ⟨place, hplace⟩
    exact (Document.place_eq_ok_iff.mp hplace).1

/-- The complaint about places is that about a document without one. -/
theorem checkPlaces_eq_error {ds : List Document} {e : WriteError} (h : checkPlaces ds = .error e) :
    ∃ d ∈ ds, d.place = .error e := by
  induction ds with
  | nil => cases h
  | cons d ds ih =>
    rw [checkPlaces_cons] at h
    cases hplace : d.place with
    | error e' =>
      rw [hplace] at h
      obtain rfl := Except.error.inj h
      exact ⟨d, List.mem_cons_self, hplace⟩
    | ok place =>
      rw [hplace] at h
      obtain ⟨d', hd', he⟩ := ih h
      exact ⟨d', List.mem_cons_of_mem d hd', he⟩

section Export

variable {args : ExportArguments} {env : Environment} {s : Schema}
  (hschema : exportedSchema args env = .ok s)

include hschema

/-- An export with a document without a place is refused for a bad name, and touches nothing. -/
theorem exportDefinitions_of_not_hasPlace {d : Document} (hd : d ∈ exportSchema env.settings.exporting s)
    (hplace : ¬ d.HasPlace) :
    (∃ name, BadName name ∧
        (exportDefinitions args env).result = .error (.definition (.invalidName name))) ∧
      (exportDefinitions args env).files = env.files := by
  cases hcheck : checkPlaces (exportSchema env.settings.exporting s) with
  | ok _ => exact absurd (checkPlaces_eq_ok_iff.mp hcheck d hd) hplace
  | error e =>
    obtain ⟨d', -, he⟩ := checkPlaces_eq_error hcheck
    obtain ⟨name, rfl, hbad, -⟩ := Document.place_eq_error he
    simp only [exportDefinitions, hschema, writeDocuments, hcheck]
    exact ⟨⟨name, hbad, rfl⟩, rfl⟩

/-- An export in which every document has a place is a run that writes the documents. -/
theorem exists_writeAll_of_hasPlace (hplaces : ∀ d ∈ exportSchema env.settings.exporting s, d.HasPlace) :
    ∃ result, writeAll args.outDir (exportSchema env.settings.exporting s) env.files =
      (result, (exportDefinitions args env).files) := by
  simp only [exportDefinitions, hschema, writeDocuments, checkPlaces_eq_ok_iff.mpr hplaces]
  cases writeAll args.outDir (exportSchema env.settings.exporting s) env.files with
  | mk result files => cases result <;> exact ⟨_, rfl⟩

end Export

/-- **Confinement.**  If a document has a bad name, the export is refused for such a name, and nothing is
created or changed.  Otherwise, whether it succeeds or not, every directory stays, every file is as it was
or is a definition below the output directory, and each document is written under the path that its hint
announces. -/
theorem exportDefinitions_confined {args : ExportArguments} {env : Environment} {s : Schema}
    (hschema : exportedSchema args env = .ok s) :
    let documents := exportSchema env.settings.exporting s
    let o := exportDefinitions args env
    ((∃ d ∈ documents, BadName d.name ∨ BadName d.fileName) →
      (∃ name, BadName name ∧ o.result = .error (.definition (.invalidName name))) ∧
        o.files = env.files) ∧
    ((∀ d ∈ documents, ¬ BadName d.name ∧ ¬ BadName d.fileName) →
      env.files.Writes (fun path text => ∃ base, o.files.RootAt args.outDir base ∧
        ∃ names, DefinitionPlace names ∧ path = base ++ names ∧ ∃ d ∈ documents, text = d.text) o.files ∧
      ∀ d ∈ documents, ∃ path, d.hint = "Place in " ++ path ∧ d.relativePath = .ok path ∧
        (∀ t written t', d.write args.outDir t = (.ok written, t') → written = below args.outDir path) ∧
        (o.result = .ok () → ∃ text, o.files.read (below args.outDir path) = .ok text)) := by
  intro documents o
  refine ⟨?_, fun hgood => ?_⟩
  · rintro ⟨d, hd, hbad⟩
    refine exportDefinitions_of_not_hasPlace hschema hd fun hplace => ?_
    obtain ⟨hname, hfile⟩ := Document.hasPlace_iff.mp hplace
    exact hbad.elim hname hfile
  · have hplaces : ∀ d ∈ documents, d.HasPlace := fun d hd => Document.hasPlace_iff.mpr (hgood d hd)
    obtain ⟨result, hrun⟩ := exists_writeAll_of_hasPlace hschema hplaces
    constructor
    · refine (writes_writeAll hrun).mono ?_
      rintro path text ⟨base, hroot, d, hd, hplace, rfl, rfl⟩
      exact ⟨base, hroot, d.names, definitionPlace_names hd hplace, rfl, d, hd, rfl⟩
    · intro d hd
      have hplace := hplaces d hd
      refine ⟨joinPath d.names, hint_eq_of_mem_exportSchema hd,
        Document.relativePath_eq_ok_iff.mpr ⟨hplace, rfl⟩, ?_, ?_⟩
      · intro t written t' hwrite
        rcases Document.write_cases hwrite with ⟨⟨e, he⟩, -⟩ | ⟨hpath, -⟩
        · cases he
        · exact Except.ok.inj hpath
      · intro hok
        have hall := writeAll_of_exportDefinitions hschema hok
        obtain ⟨before, last, after, hsplit, hnames, hlast⟩ := exists_last_of_mem hd
        rw [show exportSchema env.settings.exporting s = before ++ last :: after from hsplit] at hall
        rw [← hnames] at hlast ⊢
        exact ⟨last.text, read_writeAll_of_last hall hlast⟩

/-- Tags and an entity `s`, whose singular is empty: not even the tags are exported.  Tags and categories:
both have their files where the hints say. -/
theorem exportDefinitions_confined_tags :
    let refused := twoEntitiesEnvironment "tags" "s"
    let written := twoEntitiesEnvironment "tags" "categories"
    let s : Schema := ⟨[⟨"tags", []⟩, ⟨"categories", []⟩]⟩
    (exportedSchema exportToNew refused = .ok ⟨[⟨"tags", []⟩, ⟨"s", []⟩]⟩ ∧
      (exportDefinitions exportToNew refused).result = .error (.definition (.invalidName "")) ∧
      (exportDefinitions exportToNew refused).files = refused.files) ∧
    exportedSchema exportToNew written = .ok s ∧
      (exportDefinitions exportToNew written).result = .ok () ∧
      ∀ d ∈ exportSchema written.settings.exporting s, ∃ path, d.hint = "Place in " ++ path ∧
        ∃ text, (exportDefinitions exportToNew written).files.read (below "out" path) = .ok text := by
  intro refused written s
  have hrefused : exportedSchema exportToNew refused = .ok ⟨[⟨"tags", []⟩, ⟨"s", []⟩]⟩ := by
    decide +kernel
  have hwritten : exportedSchema exportToNew written = .ok s := by decide +kernel
  have hok : (exportDefinitions exportToNew written).result = .ok () := by decide +kernel
  have hbad := (exportDefinitions_confined hrefused).1 (by decide +kernel)
  have hgood := (exportDefinitions_confined hwritten).2 (by decide +kernel)
  refine ⟨⟨hrefused, by decide +kernel, hbad.2⟩, hwritten, hok, fun d hd => ?_⟩
  obtain ⟨path, hhint, -, -, hread⟩ := hgood.2 d hd
  exact ⟨path, hhint, hread hok⟩

end ContentModel.Command

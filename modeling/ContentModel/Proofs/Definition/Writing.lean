import ContentModel.Definition.Export
import ContentModel.Proofs.Files.Directories

/-
# Writing documents

Each document of a run is written to its own place below the root, over whatever file stands there.  So
of several documents with the same place the last one stays, and no other file is touched, even if the run
stops at a document that cannot be written.

Main statements: `Document.write_cases` (all that writing one document does), `writes_writeAll` (all that a
run writes) and `read_writeAll_of_last` (which document a run leaves at a place).
-/

namespace ContentModel.Definition

open Files

/-! ## Places -/

/-- A single segment of a path is a name. -/
theorem isName_of_isSegment {name : String} (h : isSegment name = true) : IsName name := by
  simp only [isSegment, Bool.and_eq_true, bne_iff_ne, List.all_eq_true] at h
  obtain ⟨⟨⟨hempty, hpoint⟩, hpoints⟩, hall⟩ := h
  exact ⟨hempty, hpoint, hpoints, fun hslash => by simpa using hall '/' hslash⟩

namespace Document

/-- The document has a place: its name and its file name are single segments of a path. -/
def HasPlace (d : Document) : Prop :=
  isSegment d.name = true ∧ isSegment d.fileName = true

/-- The names that lead to the place of a document. -/
def names (d : Document) : Path :=
  directory d.kind d.name ++ [d.fileName]

/-- The place of a document that has one. -/
theorem place_eq_ok_iff {d : Document} {place : Path × String} :
    d.place = .ok place ↔ d.HasPlace ∧ place = (directory d.kind d.name, d.fileName) := by
  rw [Document.place, HasPlace, segment, segment]
  cases hname : isSegment d.name with
  | false => simp [bind, Except.bind]
  | true =>
    cases hfile : isSegment d.fileName with
    | false => simp [bind, Except.bind]
    | true => simp [bind, Except.bind, eq_comm]

/-- The path of a document that has a place. -/
theorem relativePath_eq_ok_iff {d : Document} {path : String} :
    d.relativePath = .ok path ↔ d.HasPlace ∧ path = joinPath d.names := by
  rw [relativePath]
  constructor
  · intro h
    cases hplace : d.place with
    | error e =>
      rw [hplace] at h
      cases h
    | ok place =>
      obtain ⟨hd, rfl⟩ := place_eq_ok_iff.mp hplace
      rw [hplace] at h
      exact ⟨hd, (Except.ok.inj h).symm⟩
  · rintro ⟨hd, rfl⟩
    rw [place_eq_ok_iff.mpr ⟨hd, rfl⟩]
    rfl

theorem names_ne_nil (d : Document) : d.names ≠ [] := by
  simp [names]

/-- The directory of a document that has a place is given by names. -/
theorem isName_of_mem_directory {d : Document} (h : d.HasPlace) :
    ∀ n ∈ directory d.kind d.name, IsName n := by
  have hname : IsName d.name := isName_of_isSegment h.1
  have hfixed : ∀ n ∈ ["src", "api", "content-types", "components"], IsName n := by
    intro n hn
    refine isName_of_isSegment ?_
    revert n
    decide
  intro n hn
  cases hkind : d.kind <;> simp only [hkind, directory, List.mem_cons, List.not_mem_nil, or_false] at hn
  · rcases hn with rfl | rfl | rfl | rfl | rfl
    · exact hfixed "src" (by simp)
    · exact hfixed "api" (by simp)
    · exact hname
    · exact hfixed "content-types" (by simp)
    · exact hname
  · rcases hn with rfl | rfl | rfl
    · exact hfixed "src" (by simp)
    · exact hfixed "components" (by simp)
    · exact hname

/-- The place of a document is given by names. -/
theorem isName_of_mem_names {d : Document} (h : d.HasPlace) : ∀ n ∈ d.names, IsName n := by
  intro n hn
  rcases List.mem_append.mp hn with hn | hn
  · exact isName_of_mem_directory h n hn
  · rw [List.mem_singleton.mp hn]
    exact isName_of_isSegment h.2

theorem directory_ne_nil (kind : Kind) (name : String) : directory kind name ≠ [] := by
  cases kind <;> simp [directory]

/-! ## One document -/

/-- Writing below a directory below a root is writing below the root. -/
theorem below_directory_fileName {d : Document} (h : d.HasPlace) (root : String) :
    below (below root (joinPath (directory d.kind d.name))) d.fileName = below root (joinPath d.names) :=
  below_below (directory_ne_nil d.kind d.name) (isName_of_mem_directory h) root d.fileName

/-- What writing the file of a document leaves: all other files.  If it succeeds, the root leads to a
directory, and the file stands at its place below it. -/
theorem writeFile_cases {d : Document} (hd : d.HasPlace) {root text : String} {t t' : Tree}
    {result : Except OsError Unit}
    (h : writeFile (below root (joinPath (directory d.kind d.name))) d.fileName text t = (result, t')) :
    (∃ e, result = .error e) ∧ t.Writes Tree.nothing t' ∨
      result = .ok () ∧ ∃ base, t'.RootAt root base ∧
        t.Writes (fun path s => path = base ++ d.names ∧ s = text) t' ∧
        t'.root.read (base ++ d.names) = .ok text := by
  rw [writeFile] at h
  cases hcreate : t.createDirectories (below root (joinPath (directory d.kind d.name))) with
  | mk created made =>
    obtain ⟨hmade, hlead⟩ := Tree.createDirectories_below_cases (directory_ne_nil d.kind d.name)
      (isName_of_mem_directory hd) hcreate
    rw [hcreate] at h
    cases created with
    | error e =>
      obtain ⟨rfl, rfl⟩ := Prod.mk.inj h
      exact Or.inl ⟨⟨e, rfl⟩, hmade⟩
    | ok _ =>
      obtain ⟨base, hroot, -⟩ := hlead rfl
      dsimp only at h
      rw [below_directory_fileName hd] at h
      cases hwrite : made.write (below root (joinPath d.names)) text with
      | error e =>
        rw [hwrite] at h
        obtain ⟨rfl, rfl⟩ := Prod.mk.inj h
        exact Or.inl ⟨⟨e, rfl⟩, hmade⟩
      | ok t₁ =>
        rw [hwrite] at h
        obtain ⟨rfl, rfl⟩ := Prod.mk.inj h
        obtain ⟨base', hbase', hfile⟩ :=
          (Tree.write_below_eq_ok_iff d.names_ne_nil (isName_of_mem_names hd)).mp hwrite
        -- The root led to its directory before the file was written, too.
        obtain rfl : base = base' := Except.ok.inj (hroot.1.symm.trans hbase')
        have hwritten := Tree.writes_of_write hfile
        refine Or.inr ⟨rfl, base, hroot.of_writes hwritten, ?_, ?_⟩
        · exact (hmade.mono fun _ _ => False.elim).trans hwritten
        · rw [Entry.read_eq_ok_iff, Entry.shape?_write hfile, if_pos rfl]

/-- **Writing one document.**  If it fails, no file is written.  If it succeeds, the document has a place,
the root leads to a directory, and the file at the place below it, whose path is shown, is the only one
written. -/
theorem write_cases {d : Document} {root : String} {t t' : Tree} {result : Except WriteError String}
    (h : d.write root t = (result, t')) :
    (∃ e, result = .error e) ∧ t.Writes Tree.nothing t' ∨
      result = .ok (below root (joinPath d.names)) ∧ d.HasPlace ∧ ∃ base, t'.RootAt root base ∧
        t.Writes (fun path s => path = base ++ d.names ∧ s = d.text) t' ∧
        t'.root.read (base ++ d.names) = .ok d.text := by
  rw [Document.write] at h
  cases hplace : d.place with
  | error e =>
    rw [hplace] at h
    obtain ⟨rfl, rfl⟩ := Prod.mk.inj h
    exact Or.inl ⟨⟨e, rfl⟩, .refl _ t⟩
  | ok place =>
    obtain ⟨hd, rfl⟩ := place_eq_ok_iff.mp hplace
    rw [hplace] at h
    dsimp only at h
    cases hfile : writeFile (below root (joinPath (directory d.kind d.name))) d.fileName d.text t with
    | mk written t₁ =>
      rw [hfile] at h
      rcases writeFile_cases hd hfile with ⟨⟨e, rfl⟩, hwrites⟩ | ⟨rfl, hwrites⟩
      · obtain ⟨rfl, rfl⟩ := Prod.mk.inj h
        exact Or.inl ⟨⟨_, rfl⟩, hwrites⟩
      · obtain ⟨rfl, rfl⟩ := Prod.mk.inj h
        rw [below_directory_fileName hd]
        exact Or.inr ⟨rfl, hd, hwrites⟩

/-- Writing a document that succeeds. -/
theorem write_eq_ok {d : Document} {root path : String} {t t' : Tree}
    (h : d.write root t = (.ok path, t')) :
    d.HasPlace ∧ ∃ base, t'.RootAt root base ∧
      t.Writes (fun path s => path = base ++ d.names ∧ s = d.text) t' ∧
      t'.root.read (base ++ d.names) = .ok d.text := by
  rcases write_cases h with ⟨⟨e, he⟩, -⟩ | ⟨-, hwritten⟩
  · cases he
  · exact hwritten

/-- Writing a document leaves the files at all other places below a root with a directory. -/
theorem read_write_of_ne {d : Document} {root path : String} {base : Path} {t t' : Tree}
    (hroot : t.RootAt root base) (h : d.write root t = (.ok path, t')) {names : Path} (hne : names ≠ [])
    (hnames : ∀ n ∈ names, IsName n) (hother : d.names ≠ names) (text : String) :
    t'.read (below root (joinPath names)) = .ok text ↔
      t.read (below root (joinPath names)) = .ok text := by
  obtain ⟨-, base', hroot', hwrites, -⟩ := write_eq_ok h
  obtain rfl := (hroot.of_writes hwrites).unique hroot'
  rw [Tree.read_below_eq_ok_iff hne hnames, Tree.read_below_eq_ok_iff hne hnames, hroot.1, hroot'.1]
  simp only [Except.ok.injEq, exists_eq_left']
  rcases hwrites.files (base ++ names) with hsame | ⟨_, ⟨heq, -⟩, -⟩
  · exact hsame text
  · exact absurd (List.append_cancel_left heq).symm hother

/-- Writing a document leaves its text at its place. -/
theorem read_write {d : Document} {root path : String} {t t' : Tree}
    (h : d.write root t = (.ok path, t')) :
    t'.read (below root (joinPath d.names)) = .ok d.text := by
  obtain ⟨hd, base, hroot, -, hread⟩ := write_eq_ok h
  rw [Tree.read_below_eq_ok_iff d.names_ne_nil (isName_of_mem_names hd)]
  exact ⟨base, hroot.1, hread⟩

end Document

/-! ## A run of documents -/

section Run

variable {root : String} {t t' : Tree}

/-- A run writes its first document and then the others. -/
theorem writeAll_cons_eq_ok_iff {d : Document} {ds : List Document} :
    writeAll root (d :: ds) t = (.ok (), t') ↔
      ∃ path next, d.write root t = (.ok path, next) ∧ writeAll root ds next = (.ok (), t') := by
  rw [writeAll]
  cases d.write root t with
  | mk result next =>
    cases result <;> simp

/-- A run writes the documents of its first part and then the others. -/
theorem writeAll_append_eq_ok_iff {ds ds' : List Document} :
    writeAll root (ds ++ ds') t = (.ok (), t') ↔
      ∃ next, writeAll root ds t = (.ok (), next) ∧ writeAll root ds' next = (.ok (), t') := by
  induction ds generalizing t with
  | nil => simp [writeAll]
  | cons d ds ih =>
    rw [List.cons_append, writeAll_cons_eq_ok_iff]
    simp only [ih, writeAll_cons_eq_ok_iff]
    constructor
    · rintro ⟨path, next, hd, mid, hds, hds'⟩
      exact ⟨mid, ⟨path, next, hd, hds⟩, hds'⟩
    · rintro ⟨mid, ⟨path, next, hd, hds⟩, hds'⟩
      exact ⟨path, next, hd, mid, hds, hds'⟩

/-- Every document of a run has a place. -/
theorem hasPlace_of_writeAll {ds : List Document} (h : writeAll root ds t = (.ok (), t')) :
    ∀ d ∈ ds, d.HasPlace := by
  induction ds generalizing t with
  | nil => simp
  | cons d ds ih =>
    obtain ⟨path, next, hd, hds⟩ := writeAll_cons_eq_ok_iff.mp h
    intro d' hd'
    rcases List.mem_cons.mp hd' with rfl | hd'
    · exact (Document.write_eq_ok hd).1
    · exact ih hds d' hd'

/-- **Other files.**  A run leaves the files at all places below a root with a directory that are none of
its documents'. -/
theorem read_writeAll_of_ne {base : Path} (hroot : t.RootAt root base) {ds : List Document}
    (h : writeAll root ds t = (.ok (), t')) {names : Path} (hne : names ≠ [])
    (hnames : ∀ n ∈ names, IsName n) (hother : ∀ d ∈ ds, d.names ≠ names) (text : String) :
    t'.read (below root (joinPath names)) = .ok text ↔
      t.read (below root (joinPath names)) = .ok text := by
  induction ds generalizing t with
  | nil =>
    obtain rfl := (Prod.mk.inj h).2
    rfl
  | cons d ds ih =>
    obtain ⟨path, next, hd, hds⟩ := writeAll_cons_eq_ok_iff.mp h
    obtain ⟨-, _, -, hwrites, -⟩ := Document.write_eq_ok hd
    rw [ih (hroot.of_writes hwrites) hds fun d' hd' => hother d' (List.mem_cons_of_mem d hd'),
      Document.read_write_of_ne hroot hd hne hnames (hother d List.mem_cons_self)]

/-- **The last document.**  After a run, the text of a document stands at its place if no document after
it has the same place. -/
theorem read_writeAll_of_last {before after : List Document} {d : Document}
    (h : writeAll root (before ++ d :: after) t = (.ok (), t'))
    (hlast : ∀ d' ∈ after, d'.names ≠ d.names) :
    t'.read (below root (joinPath d.names)) = .ok d.text := by
  obtain ⟨mid, -, hrest⟩ := writeAll_append_eq_ok_iff.mp h
  obtain ⟨path, next, hd, hafter⟩ := writeAll_cons_eq_ok_iff.mp hrest
  obtain ⟨hplace, base, hroot, -⟩ := Document.write_eq_ok hd
  rw [read_writeAll_of_ne hroot hafter d.names_ne_nil (Document.isName_of_mem_names hplace) hlast]
  exact Document.read_write hd

/-- **What a run writes.**  Whether it succeeds or not, a run writes no file but those of its documents, at
their places below the directory that the root leads to afterwards. -/
theorem writes_writeAll {ds : List Document} {result : Except WriteError Unit}
    (h : writeAll root ds t = (result, t')) :
    t.Writes (fun path s => ∃ base, t'.RootAt root base ∧ ∃ d ∈ ds, d.HasPlace ∧
      path = base ++ d.names ∧ s = d.text) t' := by
  induction ds generalizing t with
  | nil =>
    obtain ⟨-, rfl⟩ := Prod.mk.inj h
    exact .refl _ t
  | cons d ds ih =>
    rw [writeAll] at h
    cases hd : d.write root t with
    | mk written next =>
      rw [hd] at h
      rcases Document.write_cases hd with ⟨⟨e, rfl⟩, hwrites⟩ | ⟨rfl, hplace, base, hroot, hwrites, -⟩
      · obtain ⟨-, rfl⟩ := Prod.mk.inj h
        exact hwrites.mono fun _ _ => False.elim
      · have hrest := ih h
        refine .trans (hwrites.mono ?_) (hrest.mono ?_)
        · rintro path s ⟨rfl, rfl⟩
          exact ⟨base, hroot.of_writes hrest, d, List.mem_cons_self, hplace, rfl, rfl⟩
        · rintro path s ⟨base', hroot', d', hd', hs⟩
          exact ⟨base', hroot', d', List.mem_cons_of_mem d hd', hs⟩

/-- Among the documents of one place there is a last one. -/
theorem exists_last_of_mem {ds : List Document} {d : Document} (hd : d ∈ ds) :
    ∃ before last after, ds = before ++ last :: after ∧ last.names = d.names ∧
      ∀ d' ∈ after, d'.names ≠ d.names := by
  have hfound : (ds.reverse.find? fun d' => d'.names = d.names).isSome := by
    rw [List.find?_isSome]
    exact ⟨d, List.mem_reverse.mpr hd, by simp⟩
  obtain ⟨last, hlast⟩ := Option.isSome_iff_exists.mp hfound
  obtain ⟨hnames, after, before, hsplit, hafter⟩ := List.find?_eq_some_iff_append.mp hlast
  refine ⟨before.reverse, last, after.reverse, ?_, by simpa using hnames, fun d' hd' => ?_⟩
  · rw [← List.reverse_reverse ds, hsplit]
    simp
  · simpa using hafter d' (List.mem_reverse.mp hd')

/-- **A run.**  Every document keeps its file exactly if documents of the same place have the same
text. -/
theorem forall_read_writeAll_iff {ds : List Document} (h : writeAll root ds t = (.ok (), t')) :
    (∀ d ∈ ds, t'.read (below root (joinPath d.names)) = .ok d.text) ↔
      ∀ d ∈ ds, ∀ d' ∈ ds, d.names = d'.names → d.text = d'.text := by
  constructor
  · intro hkept d hd d' hd' hnames
    have hread := hkept d hd
    rw [hnames, hkept d' hd', Except.ok.injEq] at hread
    exact hread.symm
  · intro hsame d hd
    obtain ⟨before, last, after, rfl, hnames, hlast⟩ := exists_last_of_mem hd
    have hread := read_writeAll_of_last h (by rw [hnames]; exact hlast)
    rw [hnames] at hread
    rw [hread, hsame last (by simp) d hd hnames]

end Run

end ContentModel.Definition

import ContentModel.Command.Basic
import ContentModel.Proofs.Dataset
import ContentModel.Proofs.Files.Paths

/-
# What commands read and write

Reporting, logging and sending requests show in the outcome of a command and change neither its result nor its
files.  An output that was written to a file is read back from it.

Main statements: `read_writeOutput` and `loadDataset_of_read`.
-/

namespace ContentModel.Command

/-! ## Outcomes -/

namespace Outcome

variable (o : Outcome)

end Outcome

/-! ## Files -/

/-- An output is written to a file if the file can be written, and its text stands there afterwards. -/
theorem read_writeOutput {path content : String} {files : Files.Tree}
    (h : (writeOutput (some path) content files).result = .ok ()) :
    (writeOutput (some path) content files).files.read path = .ok content := by
  rw [writeOutput] at h ⊢
  cases hwrite : files.write path content with
  | error reason =>
    rw [hwrite] at h
    cases h
  | ok files' => exact Files.Tree.read_of_write hwrite

/-- Writing an output to a file leaves what stands in other files. -/
theorem read_writeOutput_of_ne {path content other text : String} {files : Files.Tree} {p : Files.Path}
    (h : (writeOutput (some path) content files).result = .ok ()) (htarget : files.target path = .ok p)
    (hne : files.resolve other ≠ .ok p) (hread : files.read other = .ok text) :
    (writeOutput (some path) content files).files.read other = .ok text := by
  rw [writeOutput] at h ⊢
  cases hwrite : files.write path content with
  | error reason =>
    rw [hwrite] at h
    cases h
  | ok files' => exact Files.Tree.read_of_write_of_ne hwrite htarget hne hread

/-- A dataset was read from the text of a file. -/
theorem exists_read_of_loadDataset {path : String} {files : Files.Tree} {d : Dataset}
    (h : loadDataset path files = .ok d) : ∃ text, files.read path = .ok text := by
  rw [loadDataset] at h
  cases hread : files.read path with
  | error reason =>
    rw [hread] at h
    cases h
  | ok text => exact ⟨text, rfl⟩

/-- Files with the same text hold the same dataset. -/
theorem loadDataset_of_read_eq {path path' : String} {files files' : Files.Tree} {d : Dataset}
    (hread : files'.read path' = files.read path) (h : loadDataset path files = .ok d) :
    loadDataset path' files' = .ok d := by
  obtain ⟨text, htext⟩ := exists_read_of_loadDataset h
  rw [loadDataset, htext] at h
  rw [loadDataset, hread, htext]
  exact h

/-- A file with the text of a dataset reads back as the dataset, unless it has too many levels. -/
theorem loadDataset_of_read {path : String} {files : Files.Tree} {d : Dataset}
    (hd : d.toValue.WellFormed) (h : files.read path = .ok d.toValue.pretty) :
    loadDataset path files =
      if d.toValue.depth ≤ Json.nestingLimit then .ok d else .error (.dataset .unreadable) := by
  rw [loadDataset, h]
  dsimp only
  rw [Dataset.ofText_pretty hd]
  split <;> rfl

end ContentModel.Command

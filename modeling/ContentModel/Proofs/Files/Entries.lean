import Mathlib.Data.List.Infix
import ContentModel.Files.Tree

/-
# What stands where in a tree of files

All that can be read off a tree is what stands at each path: a file with its text, a directory, or
nothing.  An operation that succeeds changes this in one way: writing a file puts its text at its path,
and creating a directory makes directories of the path and of those that lead to it.

Main statements: `shape?_write` and `shape?_createDirectories` (all that the operations change) and
`read_createDirectories_iff` (creating directories changes no file).
-/

namespace ContentModel.Files.Entry

/-! ## Shapes -/

/-- What stands at a path: a file with its text, a directory, or nothing. -/
def shape? (path : Path) (root : Entry) : Option (Option String) :=
  match root.at? path with
  | .ok (file text) => some (some text)
  | .ok (directory _) => some none
  | .error _ => none

/-- A file is read exactly where it stands. -/
theorem read_eq_ok_iff {path : Path} {root : Entry} {text : String} :
    root.read path = .ok text ↔ root.shape? path = some (some text) := by
  rw [read, shape?]
  cases root.at? path with
  | error e => simp
  | ok e => cases e <;> simp

/-- What stands below a name in a directory is what stands in the entry of the name. -/
@[simp]
theorem shape?_cons_directory (name : String) (path : Path) (entries : List (String × Entry)) :
    (directory entries).shape? (name :: path) = (Keyed.get? name entries).bind (shape? path) := by
  simp only [shape?, at?]
  cases Keyed.get? name entries <;> rfl

/-- Nothing stands below the root of an empty tree. -/
theorem shape?_empty (path : Path) : shape? path empty = if path = [] then some none else none := by
  cases path <;> simp [empty, shape?, at?, Keyed.get?, Keyed.find?]

/-- What stands below a path stands in a directory. -/
theorem shape?_of_append {path below : Path} (hbelow : below ≠ []) {root : Entry}
    (h : root.shape? (path ++ below) ≠ none) : root.shape? path = some none := by
  induction path generalizing root with
  | nil =>
    obtain ⟨name, below, rfl⟩ := List.exists_cons_of_ne_nil hbelow
    cases root with
    | file text => exact absurd rfl h
    | directory entries => rfl
  | cons name path ih =>
    cases root with
    | file text => exact absurd rfl h
    | directory entries =>
      rw [List.cons_append, shape?_cons_directory] at h
      rw [shape?_cons_directory]
      cases hget : Keyed.get? name entries with
      | none => simp [hget] at h
      | some e =>
        rw [hget, Option.bind_some] at h
        exact ih h

/-- What leads to a directory are directories. -/
theorem shape?_of_isPrefix {path path' : Path} (hstart : path' <+: path) {root : Entry}
    (h : root.shape? path = some none) : root.shape? path' = some none := by
  obtain ⟨below, rfl⟩ := hstart
  by_cases hbelow : below = []
  · rw [hbelow, List.append_nil] at h
    exact h
  · exact shape?_of_append hbelow (by rw [h]; exact Option.some_ne_none _)

/-! ## Writing a file -/

/-- What stands below a name after a put. -/
theorem shape?_put (name name' : String) (path : Path) (e : Entry) (entries : List (String × Entry)) :
    (directory (Keyed.put name e entries)).shape? (name' :: path) =
      if name' = name then e.shape? path else (directory entries).shape? (name' :: path) := by
  rw [shape?_cons_directory, shape?_cons_directory]
  split
  · rename_i hname
    rw [hname, Keyed.get?_put_self, Option.bind_some]
  · rename_i hname
    rw [Keyed.get?_put_of_ne hname]

/-- Writing below a name that a directory has writes in the entry of the name. -/
theorem write_of_get? {text name : String} {path : Path} {entries : List (String × Entry)} {e : Entry}
    (h : Keyed.get? name entries = some e) :
    (directory entries).write text (name :: path) =
      (e.write text path).map fun e => directory (Keyed.put name e entries) := by
  simp [write, h]

/-- **Writing.**  A file that is written stands at its path; everything else stands as it did. -/
theorem shape?_write {text : String} {path : Path} {root root' : Entry}
    (h : root.write text path = .ok root') (q : Path) :
    root'.shape? q = if q = path then some (some text) else root.shape? q := by
  induction path generalizing root root' q with
  | nil =>
    cases root with
    | directory entries => cases h
    | file old =>
      obtain rfl := Except.ok.inj h
      cases q <;> simp [shape?, at?]
  | cons name path ih =>
    cases root with
    | file old => cases h
    | directory entries =>
      cases hget : Keyed.get? name entries with
      | some e =>
        rw [write_of_get? hget] at h
        cases hwrite : e.write text path with
        | error reason =>
          rw [hwrite] at h
          cases h
        | ok e' =>
          rw [hwrite] at h
          obtain rfl := Except.ok.inj h
          cases q with
          | nil => rfl
          | cons name' q =>
            rw [shape?_put]
            by_cases hname : name' = name
            · subst hname
              simp [ih hwrite, hget]
            · simp [hname]
      | none =>
        cases path with
        | cons name' path => simp [write, hget] at h
        | nil =>
          simp only [write, hget, Except.ok.injEq] at h
          subst h
          cases q with
          | nil => rfl
          | cons name' q =>
            rw [shape?_put]
            by_cases hname : name' = name
            · subst hname
              cases q <;> simp [hget, shape?, at?]
            · simp [hname]

/-- A file is not written where a directory stands. -/
theorem shape?_of_write {text : String} {path : Path} {root root' : Entry}
    (h : root.write text path = .ok root') : root.shape? path ≠ some none := by
  induction path generalizing root root' with
  | nil =>
    cases root with
    | directory entries => cases h
    | file old => simp [shape?, at?]
  | cons name path ih =>
    cases root with
    | file old => simp [shape?, at?]
    | directory entries =>
      rw [shape?_cons_directory]
      cases hget : Keyed.get? name entries with
      | none => simp
      | some e =>
        rw [write_of_get? hget] at h
        cases hwrite : e.write text path with
        | error reason =>
          rw [hwrite] at h
          cases h
        | ok e' => exact ih hwrite

/-- A file is written in a directory that is there. -/
theorem shape?_of_write_append {text name : String} {path : Path} {root root' : Entry}
    (h : root.write text (path ++ [name]) = .ok root') : root.shape? path = some none := by
  have hwritten : root'.shape? (path ++ [name]) ≠ none := by
    rw [shape?_write h, if_pos rfl]
    exact Option.some_ne_none _
  have hother : path ≠ path ++ [name] := by simp
  have hafter := shape?_of_append (by simp) hwritten
  rwa [shape?_write h, if_neg hother] at hafter

/-- Writing a file keeps every directory. -/
theorem shape?_write_of_directory {text : String} {path q : Path} {root root' : Entry}
    (h : root.write text path = .ok root') (hq : root.shape? q = some none) :
    root'.shape? q = some none := by
  have hother : q ≠ path := fun heq => shape?_of_write h (heq ▸ hq)
  rw [shape?_write h, if_neg hother, hq]

/-! ## Creating directories -/

/-- **Creating a directory.**  The path and what leads to it are directories; everything else stands as
it did. -/
theorem shape?_createDirectories {path : Path} {root root' : Entry}
    (h : root.createDirectories path = .ok root') (q : Path) :
    root'.shape? q = if q <+: path then some none else root.shape? q := by
  induction path generalizing root root' q with
  | nil =>
    cases root with
    | file text => cases h
    | directory entries =>
      obtain rfl := Except.ok.inj h
      cases q <;> simp [shape?, at?]
  | cons name path ih =>
    cases root with
    | file text => cases h
    | directory entries =>
      rw [createDirectories] at h
      cases hcreate : ((Keyed.get? name entries).getD empty).createDirectories path with
      | error reason =>
        rw [hcreate] at h
        cases h
      | ok e =>
        rw [hcreate] at h
        obtain rfl := Except.ok.inj h
        cases q with
        | nil => simp [shape?, at?]
        | cons name' q =>
          rw [shape?_put]
          by_cases hname : name' = name
          · subst hname
            rw [if_pos rfl, ih hcreate]
            cases hget : Keyed.get? name' entries with
            | some e => simp [hget, List.cons_prefix_cons]
            | none =>
              -- A directory that was missing is created empty, so only the empty path stands in it.
              cases q <;> simp [hget, List.cons_prefix_cons, shape?_empty]
          · simp [hname]

/-- A directory is only created where no file stands, and below no file. -/
theorem shape?_of_createDirectories {path q : Path} {root root' : Entry}
    (h : root.createDirectories path = .ok root') (hstart : q <+: path) (text : String) :
    root.shape? q ≠ some (some text) := by
  induction path generalizing root root' q with
  | nil =>
    obtain rfl := List.prefix_nil.mp hstart
    cases root with
    | file text => cases h
    | directory entries => simp [shape?, at?]
  | cons name path ih =>
    cases root with
    | file text => cases h
    | directory entries =>
      rw [createDirectories] at h
      cases hcreate : ((Keyed.get? name entries).getD empty).createDirectories path with
      | error reason =>
        rw [hcreate] at h
        cases h
      | ok e =>
        cases q with
        | nil => simp [shape?, at?]
        | cons name' q =>
          obtain ⟨rfl, hq⟩ := List.cons_prefix_cons.mp hstart
          rw [shape?_cons_directory]
          cases hget : Keyed.get? name' entries with
          | none => simp
          | some e =>
            rw [hget] at hcreate
            exact ih hcreate hq

/-- Creating directories changes no file. -/
theorem read_createDirectories_iff {path : Path} {root root' : Entry}
    (h : root.createDirectories path = .ok root') (q : Path) (text : String) :
    root'.read q = .ok text ↔ root.read q = .ok text := by
  rw [read_eq_ok_iff, read_eq_ok_iff, shape?_createDirectories h]
  split
  · rename_i hstart
    have hno := shape?_of_createDirectories h hstart text
    simp [hno]
  · rfl

end ContentModel.Files.Entry

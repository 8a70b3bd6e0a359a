import ContentModel.Proofs.Files.Paths

/-
# What a run of operations leaves

Directories are created part by part along a path, and those created stay when a later one cannot be.  So
an operation is described by what it leaves alone, whether it succeeds or not: every directory stays, and
every file is as it was or has been written.  Such descriptions compose.

Main statements: `createAlong_cases` (creating directories writes no file, and when it succeeds the path
leads to a directory) and `createDirectories_below_cases` (the same below a root).
-/

namespace ContentModel.Files.Tree

/-! ## Operations by what they leave -/

/-- Every directory stays, and every file is as it was or has been written. -/
structure Writes (written : Path → String → Prop) (t t' : Tree) : Prop where
  directories : ∀ path, t.root.shape? path = some none → t'.root.shape? path = some none
  files : ∀ path, (∀ text, t'.root.read path = .ok text ↔ t.root.read path = .ok text) ∨
    ∃ text, written path text ∧ t'.root.read path = .ok text

/-- No file is written. -/
def nothing (_ : Path) (_ : String) : Prop :=
  False

section Compose

variable {written written' : Path → String → Prop} {t t' t'' : Tree}

theorem Writes.refl (written : Path → String → Prop) (t : Tree) : t.Writes written t where
  directories := fun _ h => h
  files := fun _ => Or.inl fun _ => Iff.rfl

/-- What two operations leave, one after the other. -/
theorem Writes.trans (h : t.Writes written t') (h' : t'.Writes written t'') : t.Writes written t'' where
  directories := fun path hpath => h'.directories path (h.directories path hpath)
  files := by
    intro path
    rcases h'.files path with hsame' | hwritten'
    · rcases h.files path with hsame | ⟨text, hwritten, hread⟩
      · exact Or.inl fun text => (hsame' text).trans (hsame text)
      · exact Or.inr ⟨text, hwritten, (hsame' text).mpr hread⟩
    · exact Or.inr hwritten'

theorem Writes.mono (h : t.Writes written t')
    (himp : ∀ path text, written path text → written' path text) : t.Writes written' t' where
  directories := h.directories
  files := fun path => (h.files path).imp_right fun ⟨text, hwritten, hread⟩ =>
    ⟨text, himp path text hwritten, hread⟩

/-- Creating a directory writes no file. -/
theorem writes_of_createDirectories {path : Path} {root' : Entry}
    (h : t.root.createDirectories path = .ok root') : t.Writes nothing ⟨root'⟩ where
  directories := by
    intro q hq
    show root'.shape? q = some none
    rw [Entry.shape?_createDirectories h, hq, ite_self]
  files := fun q => Or.inl (Entry.read_createDirectories_iff h q)

/-- Writing a file leaves all others. -/
theorem writes_of_write {text : String} {p : Path} (h : t.root.write text p = .ok t'.root) :
    t.Writes (fun path s => path = p ∧ s = text) t' where
  directories := fun _ => Entry.shape?_write_of_directory h
  files := by
    intro q
    by_cases hq : q = p
    · refine Or.inr ⟨text, ⟨hq, rfl⟩, ?_⟩
      rw [Entry.read_eq_ok_iff, Entry.shape?_write h, if_pos hq]
    · refine Or.inl fun s => ?_
      rw [Entry.read_eq_ok_iff, Entry.shape?_write h, if_neg hq, Entry.read_eq_ok_iff]

end Compose

/-! ## Roots with a directory -/

/-- The root leads to a directory. -/
def RootAt (root : String) (base : Path) (t : Tree) : Prop :=
  t.base root = .ok base ∧ t.root.shape? base = some none

/-- A root with a directory leads there as long as directories stay. -/
theorem RootAt.of_writes {root : String} {base : Path} {t t' : Tree} (h : t.RootAt root base)
    {written : Path → String → Prop} (hwrites : t.Writes written t') : t'.RootAt root base := by
  have hbase := hwrites.directories base h.2
  exact ⟨base_of_directory h.1 hwrites.directories hbase, hbase⟩

theorem RootAt.unique {root : String} {base base' : Path} {t : Tree} (h : t.RootAt root base)
    (h' : t.RootAt root base') : base = base' :=
  Except.ok.inj (h.1.symm.trans h'.1)

/-! ## Creating directories -/

/-- One part of a path: no file is written, and the part leads to a directory afterwards. -/
theorem enterCreating_eq_ok {t t' : Tree} {path p : Path} {part : String}
    (h : t.enterCreating path part = .ok (p, t')) :
    t.Writes nothing t' ∧ t'.root.shape? p = some none ∧ t'.enter path part = .ok p := by
  obtain ⟨next, hnext, hcreate⟩ := bind_eq_ok_iff.mp h
  -- Whatever is created, the part leads to the same place then, since a directory stands there.
  have henter : ∀ {made : Tree}, t.Writes nothing made → made.root.shape? next = some none →
      made.enter path part = .ok next := by
    intro made hwrites hmade
    have hone : [part].foldlM t.enter path = .ok next :=
      foldlM_enter_cons_eq_ok_iff.mpr ⟨next, hnext, rfl⟩
    obtain ⟨_, hstep, hend⟩ := foldlM_enter_cons_eq_ok_iff.mp
      (foldlM_enter_of_directory hone hwrites.directories hmade)
    rwa [Except.ok.inj hend] at hstep
  cases hat : t.root.at? next with
  | ok e =>
    rw [hat] at hcreate
    cases e with
    | file text => cases hcreate
    | directory entries =>
      obtain ⟨rfl, rfl⟩ := Prod.mk.inj (Except.ok.inj hcreate)
      have hdirectory : t.root.shape? next = some none := by
        rw [Entry.shape?, hat]
      exact ⟨.refl _ t, hdirectory, hnext⟩
  | error e =>
    rw [hat] at hcreate
    cases hmake : t.root.createDirectories next with
    | error e' =>
      rw [hmake] at hcreate
      cases hcreate
    | ok made =>
      rw [hmake] at hcreate
      obtain ⟨rfl, rfl⟩ := Prod.mk.inj (Except.ok.inj hcreate)
      have hwrites := writes_of_createDirectories hmake
      have hdirectory : made.shape? next = some none := by
        rw [Entry.shape?_createDirectories hmake, if_pos List.prefix_rfl]
      exact ⟨hwrites, hdirectory, henter hwrites hdirectory⟩

/-- **All parts of a path.**  Creating directories writes no file.  If all of them could be created, the
path leads to a directory. -/
theorem createAlong_cases {parts : List String} {path : Path} {t t' : Tree}
    {result : Except OsError Unit} (h : createAlong parts path t = (result, t'))
    (hpath : parts = [] → t.root.shape? path = some none) :
    t.Writes nothing t' ∧ (result = .ok () →
      ∃ p, parts.foldlM t'.enter path = .ok p ∧ t'.root.shape? p = some none) := by
  induction parts generalizing path t with
  | nil =>
    obtain ⟨-, rfl⟩ := Prod.mk.inj h
    exact ⟨.refl _ t, fun _ => ⟨path, rfl, hpath rfl⟩⟩
  | cons part parts ih =>
    rw [createAlong] at h
    cases hpart : t.enterCreating path part with
    | error e =>
      rw [hpart] at h
      obtain ⟨rfl, rfl⟩ := Prod.mk.inj h
      exact ⟨.refl _ t, nofun⟩
    | ok made =>
      obtain ⟨next, made⟩ := made
      rw [hpart] at h
      obtain ⟨hwrites, hdirectory, henter⟩ := enterCreating_eq_ok hpart
      obtain ⟨hwrites', hlead⟩ := ih h fun _ => hdirectory
      refine ⟨hwrites.trans hwrites', fun hok => ?_⟩
      obtain ⟨p, hparts, hp⟩ := hlead hok
      have hone : [part].foldlM made.enter path = .ok next :=
        foldlM_enter_cons_eq_ok_iff.mpr ⟨next, henter, rfl⟩
      obtain ⟨_, hstep, hend⟩ := foldlM_enter_cons_eq_ok_iff.mp (foldlM_enter_of_directory hone
        hwrites'.directories (hwrites'.directories next hdirectory))
      rw [Except.ok.inj hend] at hstep
      exact ⟨p, foldlM_enter_cons_eq_ok_iff.mpr ⟨next, hstep, hparts⟩, hp⟩

/-- **Directories below a root.**  Creating them writes no file.  If all of them could be created, the
root leads to a directory, and they stand below it. -/
theorem createDirectories_below_cases {names : Path} (hne : names ≠ []) (hnames : ∀ n ∈ names, IsName n)
    {root : String} {t t' : Tree} {result : Except OsError Unit}
    (h : t.createDirectories (below root (joinPath names)) = (result, t')) :
    t.Writes nothing t' ∧ (result = .ok () →
      ∃ base, t'.RootAt root base ∧ t'.root.shape? (base ++ names) = some none) := by
  obtain ⟨hnonempty, hhead, -⟩ := joinPath_ends hne hnames
  rw [createDirectories, if_neg (below_ne_empty hnonempty root)] at h
  split at h
  · obtain ⟨rfl, rfl⟩ := Prod.mk.inj h
    exact ⟨.refl _ t, nofun⟩
  · rw [segments_below, segments_joinPath hne hnames, rootStart_below hhead] at h
    obtain ⟨hwrites, hlead⟩ := createAlong_cases h fun hnil => absurd (List.append_eq_nil_iff.mp hnil).2 hne
    refine ⟨hwrites, fun hok => ?_⟩
    obtain ⟨p, hparts, hp⟩ := hlead hok
    rw [List.foldlM_append] at hparts
    obtain ⟨base, hbase, hbelow⟩ := bind_eq_ok_iff.mp hparts
    rw [foldlM_enter_of_isName hnames] at hbelow
    obtain rfl := Except.ok.inj hbelow
    exact ⟨base, ⟨hbase, Entry.shape?_of_isPrefix (List.prefix_append base names) hp⟩, hp⟩

/-- A path that leads out of a directory again creates that directory first. -/
example :
    let made := Tree.empty.createDirectories "new/../out"
    made.1 = .ok () ∧ made.2.has "new" = true ∧ made.2.has "out" = true := by
  decide +kernel

end ContentModel.Files.Tree

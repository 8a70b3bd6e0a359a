import ContentModel.Proofs.Files.Entries
import ContentModel.Proofs.Traversal

/-
# Where the text of a path leads

The text of a path is cut at its slashes, and each part leads on from where the parts before it have led.
Names lead on whatever the tree is; other parts depend on what stands where they are read.  Where a root
leads does not change any more once a directory stands there, as long as directories stay.

Main statements: `resolve_below` (names below a root lead on from the root), `target_eq_ok_iff` (where a
file is written), `base_of_directory` (a root with a directory stays where it is) and `read_of_write` (what
is written is read back).
-/

namespace ContentModel

/-! ## Cutting a text -/

namespace Text

/-- A text without the character is one part. -/
theorem splitOn_of_notMem {sep : Char} {cs : List Char} (h : sep ∉ cs) : splitOn sep cs = [cs] := by
  induction cs with
  | nil => rfl
  | cons c cs ih =>
    rw [List.mem_cons, not_or] at h
    rw [splitOn, if_neg (Ne.symm h.1), ih h.2]

/-- The parts before and after an occurrence of the character are those of the texts before and after
it. -/
theorem splitOn_append (sep : Char) (cs ds : List Char) :
    splitOn sep (cs ++ sep :: ds) = splitOn sep cs ++ splitOn sep ds := by
  induction cs with
  | nil => simp [splitOn]
  | cons c cs ih =>
    rw [List.cons_append, splitOn, splitOn]
    by_cases hc : c = sep
    · rw [if_pos hc, if_pos hc, ih, List.cons_append]
    · rw [if_neg hc, if_neg hc, ih]
      obtain ⟨part, parts, hparts⟩ := List.exists_cons_of_ne_nil (splitOn_ne_nil sep cs)
      rw [hparts, List.cons_append, List.cons_append]

/-- The last part is empty where the text is, or ends in the character. -/
theorem getLast?_eq_of_splitOn {sep : Char} {cs : List Char}
    (h : (splitOn sep cs).getLast? = some []) : cs = [] ∨ cs.getLast? = some sep := by
  induction cs with
  | nil => exact Or.inl rfl
  | cons c cs ih =>
    refine Or.inr ?_
    rw [splitOn] at h
    have hne := splitOn_ne_nil sep cs
    split at h
    · rename_i hc
      rw [List.getLast?_cons_of_ne_nil hne] at h
      rcases ih h with rfl | hlast
      · rw [hc, List.getLast?_singleton]
      · rw [List.getLast?_cons_of_ne_nil (by rintro rfl; cases hlast), hlast]
    · obtain ⟨part, parts, hparts⟩ := List.exists_cons_of_ne_nil hne
      rw [hparts] at h ih
      by_cases hnil : parts = []
      · simp [hnil] at h
      · dsimp only at h
        rw [List.getLast?_cons_of_ne_nil hnil] at h ih
        rcases ih h with rfl | hlast
        · cases hparts
          exact absurd rfl hnil
        · rw [List.getLast?_cons_of_ne_nil (by rintro rfl; cases hlast), hlast]

end Text

namespace Files

/-- The parts of two texts with a slash between them. -/
theorem segments_append (a b : String) : segments (a ++ "/" ++ b) = segments a ++ segments b := by
  have hsplit := Text.splitOn_append '/' a.toList b.toList
  simp only [segments, String.toList_append, List.append_assoc]
  rw [show "/".toList = ['/'] from rfl, List.singleton_append, hsplit, List.map_append]

/-- The last part of a text is empty exactly if the text ends in a slash. -/
theorem getLast?_segments_eq_iff {path : String} (h : path ≠ "") :
    (segments path).getLast? = some "" ↔ path.toList.getLast? = some '/' := by
  have hne : path.toList ≠ [] := by simpa using h
  constructor
  · intro hlast
    rw [segments, List.getLast?_map, Option.map_eq_some_iff] at hlast
    obtain ⟨part, hpart, hempty⟩ := hlast
    rw [show part = [] by simpa using hempty] at hpart
    exact (Text.getLast?_eq_of_splitOn hpart).resolve_left hne
  · intro hlast
    obtain ⟨first, hfirst⟩ := List.getLast?_eq_some_iff.mp hlast
    rw [segments, hfirst, Text.splitOn_append]
    simp [Text.splitOn]

/-! ## Names -/

/-- A part of a path that leads to what stands under it, whatever else there is. -/
structure IsName (name : String) : Prop where
  ne_empty : name ≠ ""
  ne_point : name ≠ "."
  ne_points : name ≠ ".."
  slash_notMem : '/' ∉ name.toList

/-- The text of names from the root down has these names as its parts. -/
theorem segments_joinPath {names : Path} (hne : names ≠ []) (h : ∀ n ∈ names, IsName n) :
    segments (joinPath names) = names := by
  have hone : ∀ n, IsName n → segments n = [n] := by
    intro n hn
    rw [segments, Text.splitOn_of_notMem hn.slash_notMem, List.map_singleton, String.ofList_toList]
  induction names with
  | nil => exact absurd rfl hne
  | cons n names ih =>
    have hn := hone n (h n List.mem_cons_self)
    by_cases hnames : names = []
    · rw [hnames, joinPath, String.intercalate_singleton, hn]
    · rw [joinPath, String.intercalate_cons_of_ne_nil hnames, segments_append, hn]
      exact congrArg (n :: ·) (ih hnames fun m hm => h m (List.mem_cons_of_mem n hm))

/-- Different names from the root down have different texts. -/
theorem joinPath_injective {names names' : Path} (hne : names ≠ []) (hne' : names' ≠ [])
    (h : ∀ n ∈ names, IsName n) (h' : ∀ n ∈ names', IsName n)
    (heq : joinPath names = joinPath names') : names = names' := by
  rw [← segments_joinPath hne h, heq, segments_joinPath hne' h']

/-- The text of names starts and ends with a character of a name. -/
theorem joinPath_ends {names : Path} (hne : names ≠ []) (h : ∀ n ∈ names, IsName n) :
    joinPath names ≠ "" ∧ (joinPath names).toList.head? ≠ some '/' ∧
      (joinPath names).toList.getLast? ≠ some '/' := by
  have hparts := segments_joinPath hne h
  refine ⟨?_, ?_, ?_⟩
  · intro hempty
    rw [hempty] at hparts
    exact (h "" (hparts ▸ List.mem_singleton.mpr rfl)).ne_empty rfl
  · intro hhead
    obtain ⟨rest, hrest⟩ := List.head?_eq_some_iff.mp hhead
    rw [segments, hrest, ← List.nil_append ('/' :: rest), Text.splitOn_append] at hparts
    exact (h "" (hparts ▸ List.mem_cons_self)).ne_empty rfl
  · intro hlast
    obtain ⟨first, hfirst⟩ := List.getLast?_eq_some_iff.mp hlast
    rw [segments, hfirst, Text.splitOn_append] at hparts
    refine (h "" (hparts ▸ ?_)).ne_empty rfl
    simp [Text.splitOn]

/-! ## Roots -/

/-- The parts of a root's text; a slash at its end only parts it from what follows. -/
def rootSegments (root : String) : List String :=
  if root = "" then []
  else if root.toList.getLast? = some '/' then (segments root).dropLast
  else segments root

/-- The parts of a path below a root are those of the root and those of the path. -/
theorem segments_below (root path : String) :
    segments (below root path) = rootSegments root ++ segments path := by
  rw [below, rootSegments]
  split
  · rfl
  · split
    · rename_i hlast
      obtain ⟨first, hfirst⟩ := List.getLast?_eq_some_iff.mp hlast
      simp only [segments, String.toList_append, hfirst, List.append_assoc, List.singleton_append,
        Text.splitOn_append, List.map_append]
      rw [Text.splitOn, List.map_singleton, List.dropLast_concat]
    · rw [segments_append]

/-- A path below a root ends as the path does. -/
theorem getLast?_below {path : String} (hpath : path ≠ "") (root : String) :
    (below root path).toList.getLast? = path.toList.getLast? := by
  have hne : path.toList ≠ [] := by simpa using hpath
  rw [below]
  split
  · rfl
  · split
    · rw [String.toList_append, List.getLast?_append_of_ne_nil _ hne]
    · rw [String.toList_append, List.getLast?_append_of_ne_nil _ hne]

/-- A path below a root is not empty. -/
theorem below_ne_empty {path : String} (hpath : path ≠ "") (root : String) : below root path ≠ "" := by
  intro hempty
  have hends := getLast?_below hpath root
  rw [hempty] at hends
  exact hpath (by simpa using hends.symm)

/-- A path below a root starts as the root does, if there is one. -/
theorem head?_below {root : String} (hroot : root ≠ "") (path : String) :
    (below root path).toList.head? = root.toList.head? := by
  have hne : root.toList ≠ [] := by simpa using hroot
  rw [below, if_neg hroot]
  split
  · rw [String.toList_append, List.head?_append_of_ne_nil _ hne]
  · rw [String.toList_append, String.toList_append, List.append_assoc,
      List.head?_append_of_ne_nil _ hne]

/-- A name below a path below a root. -/
theorem below_below {names : Path} (hne : names ≠ []) (h : ∀ n ∈ names, IsName n)
    (root name : String) :
    below (below root (joinPath names)) name = below root (joinPath (names ++ [name])) := by
  obtain ⟨hnonempty, -, hlast⟩ := joinPath_ends hne h
  have hjoin : joinPath (names ++ [name]) = joinPath names ++ "/" ++ name := by
    rw [joinPath, String.intercalate_append_of_ne_nil hne (by simp), String.intercalate_singleton]
    rfl
  have hbelow : ∀ rest, below root (joinPath names ++ rest) = below root (joinPath names) ++ rest := by
    intro rest
    simp only [below]
    split
    · rfl
    · split <;> simp only [String.append_assoc]
  have hparent : (below root (joinPath names)).toList.getLast? ≠ some '/' := by
    rw [getLast?_below hnonempty]
    exact hlast
  rw [below, if_neg (below_ne_empty hnonempty root), if_neg hparent, hjoin, String.append_assoc,
    String.append_assoc, hbelow]

/-- A path below a root starts where the root does. -/
theorem rootStart_below {path : String} (hpath : path.toList.head? ≠ some '/') (root : String) :
    rootStart (below root path) = rootStart root := by
  rw [rootStart, rootStart]
  by_cases hroot : root = ""
  · rw [hroot, below, if_pos rfl, if_neg hpath]
    rfl
  · rw [head?_below hroot]

/-! ## Where a root leads -/

namespace Tree

/-- The names that a root stands for, from which the paths below it lead on. -/
def base (root : String) (t : Tree) : Except OsError Path :=
  (rootSegments root).foldlM t.enter (rootStart root)

/-- A name leads on to itself. -/
theorem enter_of_isName {name : String} (h : IsName name) (t : Tree) (path : Path) :
    t.enter path name = .ok (path ++ [name]) := by
  simp [enter, h.ne_empty, h.ne_point, h.ne_points]

/-- Names lead on to themselves. -/
theorem foldlM_enter_of_isName {names : Path} (h : ∀ n ∈ names, IsName n) (t : Tree) (path : Path) :
    names.foldlM t.enter path = .ok (path ++ names) := by
  induction names generalizing path with
  | nil => simp [pure, Except.pure]
  | cons n names ih =>
    have hn := enter_of_isName (h n List.mem_cons_self) t path
    have hnames := ih (fun m hm => h m (List.mem_cons_of_mem n hm)) (path ++ [n])
    rw [List.foldlM_cons, hn]
    exact hnames.trans (by rw [List.append_assoc, List.singleton_append])

/-- **Below a root.**  Names below a root lead on from where the root leads. -/
theorem resolve_below {names : Path} (hne : names ≠ []) (h : ∀ n ∈ names, IsName n) (t : Tree)
    (root : String) :
    t.resolve (below root (joinPath names)) = (t.base root).map (· ++ names) := by
  obtain ⟨hnonempty, hhead, -⟩ := joinPath_ends hne h
  rw [resolve, if_neg (below_ne_empty hnonempty root), rootStart_below hhead, segments_below,
    segments_joinPath hne h, List.foldlM_append, base]
  cases (rootSegments root).foldlM t.enter (rootStart root) with
  | error e => rfl
  | ok path => exact foldlM_enter_of_isName h t path

/-! ## Where a file is written -/

theorem directory_eq_ok_iff {t : Tree} {path p : Path} :
    t.directory path = .ok p ↔ t.root.shape? path = some none ∧ p = path := by
  rw [directory, Entry.shape?]
  cases t.root.at? path with
  | error e => simp
  | ok e => cases e <;> simp [eq_comm]

/-- A path that ends in a name is written under the name, in the directory that its other parts lead to. -/
theorem target_of_segments {t : Tree} {path name : String} {parts : List String}
    (hparts : segments path = parts ++ [name]) (hname : name ≠ "") :
    t.target path = (do
      let above ← t.directory (← parts.foldlM t.enter (rootStart path))
      if name = "." ∨ name = ".." then .error .isADirectory else .ok (above ++ [name])) := by
  have hpath : path ≠ "" := by
    rintro rfl
    rw [show segments "" = [] ++ [""] by decide] at hparts
    exact hname (List.singleton_inj.mp (List.append_inj_right' hparts rfl)).symm
  have hslash : path.toList.getLast? ≠ some '/' := by
    rw [ne_eq, ← getLast?_segments_eq_iff hpath, hparts, List.getLast?_concat, Option.some.injEq]
    exact hname
  rw [target, if_neg hpath, hparts, List.reverse_append, List.reverse_singleton, List.singleton_append,
    List.dropWhile_cons_of_neg (by simpa using hname)]
  simp only [List.reverse_reverse, hslash, or_false]

/-- Nothing is written under a path that ends in a slash, or under the empty one. -/
theorem target_ne_ok_of_segments {t : Tree} {path : String} {parts : List String}
    (hparts : segments path = parts ++ [""]) (p : Path) : t.target path ≠ .ok p := by
  intro h
  rw [target] at h
  split at h
  · cases h
  · rename_i hpath
    have hslash : path.toList.getLast? = some '/' := by
      rw [← getLast?_segments_eq_iff hpath, hparts, List.getLast?_concat]
    split at h
    · cases h
    · obtain ⟨above, -, hbelow⟩ := bind_eq_ok_iff.mp h
      obtain ⟨place, -, hfile⟩ := bind_eq_ok_iff.mp hbelow
      rw [if_pos (Or.inr (Or.inr hslash))] at hfile
      cases hfile

/-- **Where a file is written.**  It is written under the name in which its path ends, in a directory
that is there. -/
theorem target_eq_ok_iff {t : Tree} {path : String} {p : Path} :
    t.target path = .ok p ↔
      ∃ parts name above, segments path = parts ++ [name] ∧ (name ≠ "" ∧ name ≠ "." ∧ name ≠ "..") ∧
        parts.foldlM t.enter (rootStart path) = .ok above ∧ t.root.shape? above = some none ∧
        p = above ++ [name] := by
  constructor
  · intro h
    obtain ⟨parts, name, hparts⟩ := (List.eq_nil_or_concat' (segments path)).resolve_left (by
      simpa [segments] using Text.splitOn_ne_nil '/' path.toList)
    have hname : name ≠ "" := by
      rintro rfl
      exact target_ne_ok_of_segments hparts p h
    rw [target_of_segments hparts hname] at h
    obtain ⟨above, habove, hbelow⟩ := bind_eq_ok_iff.mp h
    obtain ⟨place, hplace, hfile⟩ := bind_eq_ok_iff.mp hbelow
    obtain ⟨hdirectory, rfl⟩ := directory_eq_ok_iff.mp hplace
    by_cases hpoints : name = "." ∨ name = ".."
    · rw [if_pos hpoints] at hfile
      cases hfile
    · rw [if_neg hpoints] at hfile
      rw [not_or] at hpoints
      exact ⟨parts, name, place, hparts, ⟨hname, hpoints⟩, habove, hdirectory, (Except.ok.inj hfile).symm⟩
  · rintro ⟨parts, name, above, hparts, ⟨hname, hpoints⟩, habove, hdirectory, rfl⟩
    rw [target_of_segments hparts hname]
    refine bind_eq_ok_iff.mpr ⟨above, habove, bind_eq_ok_iff.mpr ⟨above, ?_, if_neg (not_or.mpr hpoints)⟩⟩
    exact directory_eq_ok_iff.mpr ⟨hdirectory, rfl⟩

/-- A file is written where its path leads to. -/
theorem write_eq_ok_iff {t t' : Tree} {path text : String} :
    t.write path text = .ok t' ↔
      ∃ p, t.target path = .ok p ∧ t.root.write text p = .ok t'.root := by
  rw [Tree.write]
  cases t.target path with
  | error e => simp [bind, Except.bind]
  | ok p =>
    cases t'
    cases hwrite : t.root.write text p <;> simp [Except.map, bind, Except.bind, hwrite]

/-- Where a file below a root is written. -/
theorem target_below_eq_ok_iff {above : Path} {name : String} (h : ∀ n ∈ above ++ [name], IsName n)
    {t : Tree} {root : String} {p : Path} :
    t.target (below root (joinPath (above ++ [name]))) = .ok p ↔
      ∃ base, t.base root = .ok base ∧ t.root.shape? (base ++ above) = some none ∧
        p = base ++ above ++ [name] := by
  have hne : above ++ [name] ≠ [] := by simp
  have habove : ∀ n ∈ above, IsName n := fun n hn => h n (List.mem_append_left _ hn)
  have hname : IsName name := h name (by simp)
  have hparts : segments (below root (joinPath (above ++ [name]))) =
      rootSegments root ++ above ++ [name] := by
    rw [segments_below, segments_joinPath hne h, List.append_assoc]
  have hfold : (rootSegments root ++ above).foldlM t.enter (rootStart root) =
      (t.base root).map (· ++ above) := by
    rw [List.foldlM_append, ← base]
    cases t.base root with
    | error e => rfl
    | ok path => exact foldlM_enter_of_isName habove t path
  rw [target_eq_ok_iff, hparts, rootStart_below (joinPath_ends hne h).2.1]
  constructor
  · rintro ⟨parts, last, path, heq, -, hpath, hdirectory, rfl⟩
    obtain ⟨rfl, hlast⟩ := List.append_inj' heq rfl
    obtain rfl := List.singleton_inj.mp hlast
    rw [hfold] at hpath
    cases hbase : t.base root with
    | error e => rw [hbase] at hpath; cases hpath
    | ok base =>
      rw [hbase] at hpath
      obtain rfl := Except.ok.inj hpath
      exact ⟨base, rfl, hdirectory, rfl⟩
  · rintro ⟨base, hbase, hdirectory, rfl⟩
    refine ⟨_, name, base ++ above, rfl, ⟨hname.ne_empty, hname.ne_point, hname.ne_points⟩, ?_,
      hdirectory, rfl⟩
    rw [hfold, hbase]
    rfl

section Below

variable {names : Path} (hne : names ≠ []) (h : ∀ n ∈ names, IsName n) {t t' : Tree}
  {root text : String}

include hne h

/-- A file below a root is read where its names lead from the root. -/
theorem read_below_eq_ok_iff :
    t.read (below root (joinPath names)) = .ok text ↔
      ∃ base, t.base root = .ok base ∧ t.root.read (base ++ names) = .ok text := by
  rw [Tree.read, resolve_below hne h]
  cases t.base root with
  | error e => simp [Except.map, bind, Except.bind]
  | ok base => simp [Except.map, bind, Except.bind]

/-- A file below a root is written where its names lead from the root. -/
theorem write_below_eq_ok_iff :
    t.write (below root (joinPath names)) text = .ok t' ↔
      ∃ base, t.base root = .ok base ∧ t.root.write text (base ++ names) = .ok t'.root := by
  obtain ⟨above, name, rfl⟩ := List.eq_nil_or_concat' names |>.resolve_left hne
  rw [write_eq_ok_iff]
  constructor
  · rintro ⟨p, htarget, hwrite⟩
    obtain ⟨base, hbase, -, rfl⟩ := (target_below_eq_ok_iff h).mp htarget
    exact ⟨base, hbase, by rwa [← List.append_assoc]⟩
  · rintro ⟨base, hbase, hwrite⟩
    rw [← List.append_assoc] at hwrite
    exact ⟨base ++ above ++ [name],
      (target_below_eq_ok_iff h).mpr ⟨base, hbase, Entry.shape?_of_write_append hwrite, rfl⟩, hwrite⟩

end Below

/-! ## Roots that stay -/

/-- A part of a path leads on from where it stands to there, to the directory above, or to a name. -/
theorem enter_eq_ok_iff {t : Tree} {path path' : Path} {part : String} :
    t.enter path part = .ok path' ↔
      (part = "" ∨ part = ".") ∧ (∀ text, t.root.shape? path ≠ some (some text)) ∧ path' = path ∨
      (part = ".." ∧ hasParent path) ∧ t.root.shape? path = some none ∧ path' = path.dropLast ∨
      ¬ (part = "" ∨ part = ".") ∧ ¬ (part = ".." ∧ hasParent path) ∧ path' = path ++ [part] := by
  rw [enter, Entry.shape?]
  by_cases hstay : part = "" ∨ part = "."
  · have hup : ¬ (part = ".." ∧ hasParent path) := by
      rintro ⟨rfl, -⟩
      simp at hstay
    rw [if_pos hstay]
    cases t.root.at? path with
    | error e => simp [hstay, hup, eq_comm (a := path')]
    | ok e => cases e <;> simp [hstay, hup, eq_comm (a := path')]
  · rw [if_neg hstay]
    by_cases hup : part = ".." ∧ hasParent path
    · rw [if_pos hup]
      obtain ⟨rfl, hparent⟩ := hup
      cases t.root.at? path with
      | error e => simp [hparent]
      | ok e => cases e <;> simp [hparent, eq_comm (a := path')]
    · rw [if_neg hup]
      simp [hstay, hup, eq_comm (a := path')]

/-- Parts lead on one after the other. -/
theorem foldlM_enter_cons_eq_ok_iff {t : Tree} {part : String} {parts : List String}
    {path base : Path} :
    (part :: parts).foldlM t.enter path = .ok base ↔
      ∃ next, t.enter path part = .ok next ∧ parts.foldlM t.enter next = .ok base := by
  rw [List.foldlM_cons, bind_eq_ok_iff]

/-- Where nothing stands, parts of a path only lead further down. -/
theorem isPrefix_of_foldlM_enter {t : Tree} {parts : List String} {path base : Path}
    (hnone : t.root.shape? path = none) (h : parts.foldlM t.enter path = .ok base) : path <+: base := by
  induction parts generalizing path with
  | nil =>
    obtain rfl := Except.ok.inj h
    exact List.prefix_rfl
  | cons part parts ih =>
    obtain ⟨next, hnext, hrest⟩ := foldlM_enter_cons_eq_ok_iff.mp h
    rcases enter_eq_ok_iff.mp hnext with ⟨-, -, rfl⟩ | ⟨-, hdirectory, -⟩ | ⟨-, -, rfl⟩
    · exact ih hnone hrest
    · rw [hnone] at hdirectory
      cases hdirectory
    · refine (List.prefix_append path [part]).trans (ih ?_ hrest)
      by_contra hsome
      rw [Entry.shape?_of_append (by simp) hsome] at hnone
      cases hnone

/-- Parts lead to the same place after any operation that keeps all directories, if what was missing on the
way is a directory then. -/
theorem foldlM_enter_of_keeps {t t' : Tree} {parts : List String} {path base : Path}
    (h : parts.foldlM t.enter path = .ok base)
    (hkeep : ∀ path, t.root.shape? path = some none → t'.root.shape? path = some none)
    (hmissing : ∀ path, path <+: base → t.root.shape? path = none → t'.root.shape? path = some none) :
    parts.foldlM t'.enter path = .ok base := by
  induction parts generalizing path with
  | nil => exact h
  | cons part parts ih =>
    obtain ⟨next, hnext, hrest⟩ := foldlM_enter_cons_eq_ok_iff.mp h
    refine foldlM_enter_cons_eq_ok_iff.mpr ⟨next, enter_eq_ok_iff.mpr ?_, ih hrest⟩
    rcases enter_eq_ok_iff.mp hnext with ⟨hstay, hfile, rfl⟩ | ⟨hup, hdirectory, rfl⟩ | hname
    · refine Or.inl ⟨hstay, fun text => ?_, rfl⟩
      -- Nothing stood there, and it leads to the root; or it was a directory, and stays one.
      have hdirectory : t'.root.shape? next = some none := by
        cases hshape : t.root.shape? next with
        | none => exact hmissing next (isPrefix_of_foldlM_enter hshape hrest) hshape
        | some shape =>
          cases shape with
          | none => exact hkeep next hshape
          | some text => exact absurd hshape (hfile text)
      rw [hdirectory]
      simp
    · exact Or.inr (Or.inl ⟨hup, hkeep path hdirectory, rfl⟩)
    · exact Or.inr (Or.inr hname)

/-- Parts that lead to a directory lead to the same place after any operation that keeps all
directories. -/
theorem foldlM_enter_of_directory {t t' : Tree} {parts : List String} {path base : Path}
    (h : parts.foldlM t.enter path = .ok base)
    (hkeep : ∀ path, t.root.shape? path = some none → t'.root.shape? path = some none)
    (hbase : t'.root.shape? base = some none) : parts.foldlM t'.enter path = .ok base :=
  foldlM_enter_of_keeps h hkeep fun _ hprefix _ => Entry.shape?_of_isPrefix hprefix hbase

/-- **A root that stays.**  A root at a directory leads to the same place after any operation that keeps
all directories. -/
theorem base_of_directory {t t' : Tree} {root : String} {base : Path} (h : t.base root = .ok base)
    (hkeep : ∀ path, t.root.shape? path = some none → t'.root.shape? path = some none)
    (hbase : t'.root.shape? base = some none) : t'.base root = .ok base :=
  foldlM_enter_of_directory h hkeep hbase

/-! ## Reading what was written -/

/-- The path of a file that is written leads to it afterwards. -/
theorem resolve_of_write {t t' : Tree} {path text : String} {p : Path} (htarget : t.target path = .ok p)
    (hwrite : t.root.write text p = .ok t'.root) : t'.resolve path = .ok p := by
  obtain ⟨parts, name, above, hparts, ⟨hne, hpoint, hpoints⟩, hfold, hdirectory, rfl⟩ :=
    target_eq_ok_iff.mp htarget
  have hpath : path ≠ "" := by
    rintro rfl
    rw [target, if_pos rfl] at htarget
    cases htarget
  have habove := foldlM_enter_of_directory hfold (fun _ => Entry.shape?_write_of_directory hwrite)
    (Entry.shape?_write_of_directory hwrite hdirectory)
  rw [resolve, if_neg hpath, hparts, List.foldlM_append]
  refine bind_eq_ok_iff.mpr ⟨above, habove, foldlM_enter_cons_eq_ok_iff.mpr ⟨above ++ [name], ?_, rfl⟩⟩
  exact enter_eq_ok_iff.mpr (Or.inr (Or.inr ⟨by simp [hne, hpoint], by simp [hpoints], rfl⟩))

/-- **Reading what was written.**  After a file was written, its path reads the text. -/
theorem read_of_write {t t' : Tree} {path text : String} (h : t.write path text = .ok t') :
    t'.read path = .ok text := by
  obtain ⟨p, htarget, hwrite⟩ := write_eq_ok_iff.mp h
  refine bind_eq_ok_iff.mpr ⟨p, resolve_of_write htarget hwrite, ?_⟩
  rw [Entry.read_eq_ok_iff, Entry.shape?_write hwrite, if_pos rfl]

/-- **Reading elsewhere.**  After a file was written, paths that lead to other files read what they did
before. -/
theorem read_of_write_of_ne {t t' : Tree} {path text other otherText : String} {p : Path}
    (h : t.write path text = .ok t') (htarget : t.target path = .ok p) (hne : t.resolve other ≠ .ok p)
    (hread : t.read other = .ok otherText) : t'.read other = .ok otherText := by
  obtain ⟨p', htarget', hwrite⟩ := write_eq_ok_iff.mp h
  obtain rfl : p' = p := Except.ok.inj (htarget'.symm.trans htarget)
  obtain ⟨q, hresolve, hfile⟩ := bind_eq_ok_iff.mp hread
  rw [Entry.read_eq_ok_iff] at hfile
  have hq : q ≠ p' := by
    rintro rfl
    exact hne hresolve
  have hresolve' : t'.resolve other = .ok q := by
    rw [resolve] at hresolve ⊢
    split at hresolve
    · cases hresolve
    · rename_i hother
      rw [if_neg hother]
      -- What leads to a file that is there is there too.
      refine foldlM_enter_of_keeps hresolve (fun _ => Entry.shape?_write_of_directory hwrite) ?_
      rintro path ⟨below, rfl⟩ hmissing
      by_cases hbelow : below = []
      · rw [hbelow, List.append_nil, hmissing] at hfile
        cases hfile
      · rw [Entry.shape?_of_append hbelow (hfile ▸ Option.some_ne_none _)] at hmissing
        cases hmissing
  refine bind_eq_ok_iff.mpr ⟨q, hresolve', ?_⟩
  rw [Entry.read_eq_ok_iff, Entry.shape?_write hwrite, if_neg hq, hfile]

end Tree

end Files

end ContentModel

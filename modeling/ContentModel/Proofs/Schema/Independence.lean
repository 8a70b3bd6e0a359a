import Mathlib.Data.Set.Defs
import ContentModel.Proofs.Schema.Observation
import ContentModel.Proofs.Records
import ContentModel.Proofs.Schema.Names

/-
# Whether fields are analyzed independently of each other

The fields of an entity share one notebook.  The pages of two fields lie apart unless the name of one is
that of the other, a dot, and a key: then a sub-field of the one and the other itself, or a sub-field of
it, have the same page, and the texts of the one count as repeated in the other.

Main statements: `Field.eq_or_subName_of_headings` (which fields share pages), `Analyzer.alike_run` (what
a run does to a field that shares none), `Analyzer.exists_run_ne` (what it does to one that does) and
`independent_iff_apart`.
-/

namespace ContentModel

/-! ## Runs of observations -/

/-- The descriptors of the fields observed so far, and the notebook they share. -/
structure Analyzer where
  fields : List (String × Field)
  notebook : Notebook
  deriving DecidableEq, Repr

/-- A value, or its absence, under the name of a field. -/
abbrev Observation := String × Option Json.Value

namespace Analyzer

/-- Nothing observed. -/
def fresh : Analyzer :=
  ⟨[], .empty⟩

/-- The descriptor of a field. -/
def field? (name : String) (a : Analyzer) : Option Field :=
  Keyed.get? name a.fields

/-- One more observation, which starts from the last descriptor of its field. -/
def observe (reserved : Reserved) (a : Analyzer) (o : Observation) : Analyzer :=
  let (f, b) := Field.observe reserved o.1 (a.field? o.1) o.2 a.notebook
  ⟨Keyed.put o.1 f a.fields, b⟩

/-- Observations, one after the other. -/
def run (reserved : Reserved) (os : List Observation) : Analyzer :=
  os.foldl (observe reserved) fresh

/-- A run goes on after a run. -/
theorem run_concat (reserved : Reserved) (os : List Observation) (o : Observation) :
    run reserved (os ++ [o]) = (run reserved os).observe reserved o :=
  List.foldl_concat ..

end Analyzer

/-! ## Which fields share pages -/

namespace Field

/-- A name is that of a field, a dot, and the name of a sub-field it could have. -/
def SubName (name sub : String) : Prop :=
  ∃ key, sub = subHeading name key

/-- The characters of the heading of a sub-field. -/
theorem toList_subHeading (name key : String) :
    (subHeading name key).toList = name.toList ++ '.' :: key.toList := by
  simp [subHeading]

/-- A sub-field of a sub-field could be a sub-field with a dot in its name. -/
theorem subHeading_subHeading (name key key' : String) :
    subHeading (subHeading name key) key' = subHeading name (subHeading key key') := by
  simp [subHeading, String.append_assoc]

/-- A part of a sub-field's heading that goes beyond the name of the field is a heading itself. -/
theorem eq_or_subName_of_toList {m n : String} {cs ds es : List Char}
    (h : n.toList = m.toList ++ cs) (hrest : '.' :: ds = cs ++ es) : m = n ∨ SubName m n := by
  cases cs with
  | nil =>
    rw [List.append_nil] at h
    exact Or.inl (String.toList_inj.mp h.symm)
  | cons c cs =>
    rw [List.cons_append, List.cons.injEq] at hrest
    refine Or.inr ⟨String.ofList cs, String.toList_inj.mp ?_⟩
    rw [toList_subHeading, h, String.toList_ofList, hrest.1]

/-- **Shared pages.**  Two fields share a page only if the name of one is that of the other, or that
of a sub-field the other could have. -/
theorem eq_or_subName_of_headings {m n heading : String} (hm : Headings m heading)
    (hn : Headings n heading) : m = n ∨ SubName m n ∨ SubName n m := by
  rcases hm with rfl | ⟨k, rfl⟩
  · rcases hn with rfl | ⟨l, rfl⟩
    · exact Or.inl rfl
    · exact Or.inr (Or.inr ⟨l, rfl⟩)
  · rcases hn with rfl | ⟨l, hl⟩
    · exact Or.inr (Or.inl ⟨k, rfl⟩)
    · have hchars := congrArg String.toList hl
      rw [toList_subHeading, toList_subHeading, List.append_eq_append_iff] at hchars
      rcases hchars with ⟨cs, hn, hrest⟩ | ⟨cs, hm, hrest⟩
      · exact (eq_or_subName_of_toList hn hrest).imp_right Or.inl
      · exact (eq_or_subName_of_toList hm hrest).imp Eq.symm Or.inr

end Field

/-! ## Fields that share no page -/

namespace Analyzer

open ContentModel.Field (Headings SubName)

/-- Two analyzers cannot be told apart by observations of a field. -/
structure Alike (name : String) (a a' : Analyzer) : Prop where
  field : a.field? name = a'.field? name
  pages : a.notebook.AgreeOn (Headings name) a'.notebook

variable {reserved : Reserved}

/-- An observation of a field keeps analyzers alike for this field. -/
theorem Alike.observe {a a' : Analyzer} {name : String} (h : Alike name a a')
    (value : Option Json.Value) :
    Alike name (a.observe reserved (name, value)) (a'.observe reserved (name, value)) := by
  have hwithin := Field.within_observe reserved name (a.field? name) value
  constructor
  · simp only [field?, Analyzer.observe, Keyed.get?_put_self, Option.some.injEq]
    rw [← field?, ← field?, ← h.field]
    exact hwithin.reads _ _ h.pages
  · simp only [Analyzer.observe]
    rw [← h.field]
    exact hwithin.writes _ _ h.pages

/-- An observation of a field keeps what a field without shared pages has. -/
theorem alike_observe_of_apart {a : Analyzer} {name : String} {o : Observation} (hne : name ≠ o.1)
    (hsub : ¬ SubName name o.1) (hsub' : ¬ SubName o.1 name) :
    Alike name (a.observe reserved o) a := by
  constructor
  · simp only [field?, Analyzer.observe]
    exact Keyed.get?_put_of_ne hne _ _
  · intro heading hheading
    refine (Field.within_observe reserved o.1 (a.field? o.1) o.2).frame a.notebook heading ?_
    intro hother
    rcases Field.eq_or_subName_of_headings hheading hother with h | h | h
    · exact hne h
    · exact hsub h
    · exact hsub' h

/-- **Runs.**  Where no name is that of a sub-field another could have, a run does to a field what the
observations of this field alone do. -/
theorem alike_run {names : Set String} (hnames : ∀ m ∈ names, ∀ n ∈ names, ¬ SubName m n)
    {os : List Observation} (hos : ∀ o ∈ os, o.1 ∈ names) {name : String} (hname : name ∈ names) :
    Alike name (run reserved os) (run reserved (os.filter fun o => o.1 = name)) := by
  -- The last observation is of the field, or it touches none of its pages.
  induction os using List.reverseRecOn with
  | nil => exact ⟨rfl, fun _ _ => rfl⟩
  | append_singleton os o ih =>
    have ih := ih fun o' ho' => hos o' (List.mem_append_left _ ho')
    have ho : o.1 ∈ names := hos o (List.mem_append_right _ List.mem_cons_self)
    rw [run_concat, List.filter_append]
    by_cases hon : o.1 = name
    · subst hon
      rw [List.filter_cons_of_pos (by simp), List.filter_nil, run_concat]
      exact ih.observe o.2
    · rw [List.filter_cons_of_neg (by simpa using hon), List.filter_nil, List.append_nil]
      have happart : Alike name ((run reserved os).observe reserved o) (run reserved os) :=
        alike_observe_of_apart (Ne.symm hon) (hnames _ hname _ ho) (hnames _ ho _ hname)
      exact ⟨happart.field.trans ih.field, fun h hh => (happart.pages h hh).trans (ih.pages h hh)⟩

end Analyzer

/-! ## Inference as a run -/

namespace Analyzer

variable {reserved : Reserved}

/-- What a field has is not touched by observations of other fields. -/
theorem field?_foldl_of_forall_ne {name : String} {os : List Observation}
    (h : ∀ o ∈ os, name ≠ o.1) (a : Analyzer) :
    (os.foldl (observe reserved) a).field? name = a.field? name := by
  induction os generalizing a with
  | nil => rfl
  | cons o os ih =>
    rw [List.foldl_cons, ih fun o' ho' => h o' (List.mem_cons_of_mem _ ho')]
    exact Keyed.get?_put_of_ne (h o List.mem_cons_self) _ _

/-- The observations of one field over records. -/
def observationsOf (records : List Record) (name : String) : List Observation :=
  records.map fun record => (name, Keyed.get? name record)

/-- Observing a field over records is a run of its observations. -/
theorem foldl_observationsOf {name : String} {a : Analyzer} (ha : a.field? name = none)
    (records : List Record) :
    ((observationsOf records name).foldl (observe reserved) a).field? name =
        (Field.observeRecords reserved name records a.notebook).1 ∧
      ((observationsOf records name).foldl (observe reserved) a).notebook =
        (Field.observeRecords reserved name records a.notebook).2 := by
  induction records using List.reverseRecOn with
  | nil => exact ⟨ha, rfl⟩
  | append_singleton records record ih =>
    obtain ⟨hfield, hnotebook⟩ := ih
    rw [observationsOf, List.map_append, List.map_singleton, List.foldl_concat, ← observationsOf,
      Field.observeRecords_concat, observe]
    dsimp only
    rw [hfield, hnotebook]
    exact ⟨Keyed.get?_put_self _ _ _, rfl⟩

end Analyzer

namespace EntitySchema

open Analyzer (observationsOf)

variable {reserved : Reserved} {records : List Record}

/-- The fields of given names have these names. -/
theorem name_mem_of_mem_fieldsOf {names : List String} {b : Notebook} {f : Field}
    (hf : f ∈ fieldsOf reserved records names b) : f.name ∈ names := by
  induction names generalizing b with
  | nil => cases hf
  | cons name names ih =>
    rw [fieldsOf, List.mem_append, Option.mem_toList] at hf
    rcases hf with hf | hf
    · rw [Field.name_of_observeRecords hf]
      exact List.mem_cons_self
    · exact List.mem_cons_of_mem _ (ih hf)

/-- Each observation over records is one of its field. -/
theorem fst_eq_of_mem_observationsOf {name : String} {o : Observation}
    (ho : o ∈ observationsOf records name) : o.1 = name := by
  obtain ⟨record, -, rfl⟩ := List.mem_map.mp ho
  rfl

/-- Among the fields of given names there is none of another name. -/
theorem find?_fieldsOf_of_notMem {names : List String} {n : String} (hn : n ∉ names)
    (b : Notebook) : (fieldsOf reserved records names b).find? (fun f => f.name = n) = none := by
  rw [List.find?_eq_none]
  intro f hf heq
  exact hn (of_decide_eq_true heq ▸ name_mem_of_mem_fieldsOf hf)

/-- Observations of given names leave a field of another name as it was. -/
theorem field?_foldl_of_notMem {names : List String} {n : String} (hn : n ∉ names) (a : Analyzer) :
    ((names.flatMap (observationsOf records)).foldl (Analyzer.observe reserved) a).field? n =
      a.field? n := by
  refine Analyzer.field?_foldl_of_forall_ne ?_ a
  intro o ho heq
  obtain ⟨name, hname, ho⟩ := List.mem_flatMap.mp ho
  exact hn (heq.trans (fst_eq_of_mem_observationsOf ho) ▸ hname)

/-- The fields of given names are what a run of their observations leaves. -/
theorem find?_fieldsOf {names : List String} (hnames : names.Nodup) {a : Analyzer}
    (ha : ∀ m ∈ names, a.field? m = none) {n : String} (hn : a.field? n = none) :
    (fieldsOf reserved records names a.notebook).find? (fun f => f.name = n) =
      ((names.flatMap (observationsOf records)).foldl (Analyzer.observe reserved) a).field? n := by
  -- The induction carries an analyzer that has not seen the names to come.
  induction names generalizing a with
  | nil => exact hn.symm
  | cons m names ih =>
    obtain ⟨hm, hnames⟩ := List.nodup_cons.mp hnames
    let a' := (observationsOf records m).foldl (Analyzer.observe reserved) a
    have hframe : ∀ k, k ≠ m → a'.field? k = a.field? k := fun k hk =>
      Analyzer.field?_foldl_of_forall_ne
        (fun o ho heq => hk (heq.trans (fst_eq_of_mem_observationsOf ho))) a
    obtain ⟨hfield, hnotebook⟩ :
        a'.field? m = (Field.observeRecords reserved m records a.notebook).1 ∧
          a'.notebook = (Field.observeRecords reserved m records a.notebook).2 :=
      Analyzer.foldl_observationsOf (ha m List.mem_cons_self) records
    have hname : ∀ f ∈ a'.field? m, f.name = m := fun f hf =>
      Field.name_of_observeRecords (hfield ▸ hf)
    rw [List.flatMap_cons, List.foldl_append, fieldsOf, List.find?_append, ← hfield, ← hnotebook]
    by_cases hnm : n = m
    · subst hnm
      rw [find?_fieldsOf_of_notMem hm, Option.or_none, field?_foldl_of_notMem hm]
      cases hf : a'.field? n with
      | none => rfl
      | some f => simp [hname f hf]
    · have hfirst : (a'.field? m).toList.find? (fun f => f.name = n) = none := by
        rw [List.find?_eq_none]
        intro f hf heq
        exact hnm (of_decide_eq_true heq ▸ hname f (Option.mem_toList.mp hf))
      rw [hfirst, Option.none_or]
      refine ih hnames (fun k hk => ?_) ((hframe n hnm).trans hn)
      have hkm : k ≠ m := fun heq => hm (heq ▸ hk)
      exact (hframe k hkm).trans (ha k (List.mem_cons_of_mem _ hk))

/-- The observations that the inference of an entity makes. -/
def observations (settings : InferenceSettings) (records : List Record) : List Observation :=
  (keysOf (sample settings.sampleSize records)).flatMap
    (observationsOf (sample settings.sampleSize records))

/-- **Inference as a run.**  The fields of an entity are what a run of its observations leaves. -/
theorem field?_infer (settings : InferenceSettings) (entity : String) (records : List Record)
    (n : String) :
    (infer settings entity records).field? n =
      (Analyzer.run settings.reserved (observations settings records)).field? n :=
  find?_fieldsOf (a := Analyzer.fresh) (firstAppearances_keysOf _).nodup (fun _ _ => rfl) rfl

/-- Which observations of a run are of a given field. -/
theorem filter_flatMap_observationsOf {names : List String} (hnames : names.Nodup) (n : String) :
    (names.flatMap (observationsOf records)).filter (fun o => o.1 = n) =
      if n ∈ names then observationsOf records n else [] := by
  have hsame : ∀ m, m = n →
      (observationsOf records m).filter (fun o => o.1 = n) = observationsOf records n := by
    intro m hmn
    subst hmn
    exact List.filter_eq_self.mpr fun o ho => by simp [fst_eq_of_mem_observationsOf ho]
  have hother : ∀ m, m ≠ n → (observationsOf records m).filter (fun o => o.1 = n) = [] := by
    intro m hmn
    exact List.filter_eq_nil_iff.mpr fun o ho => by simp [fst_eq_of_mem_observationsOf ho, hmn]
  induction names with
  | nil => rfl
  | cons m names ih =>
    obtain ⟨hm, hnames⟩ := List.nodup_cons.mp hnames
    rw [List.flatMap_cons, List.filter_append, ih hnames]
    by_cases hmn : m = n
    · rw [hsame m hmn, if_neg (hmn ▸ hm), List.append_nil, if_pos (by simp [hmn])]
    · rw [hother m hmn, List.nil_append]
      simp [Ne.symm hmn]

/-- A name is a key of records exactly if one of them shows a value under it. -/
theorem mem_keysOf {n : String} :
    n ∈ keysOf records ↔ ∃ value ∈ records.map (Keyed.get? n), value ≠ none := by
  rw [(firstAppearances_keysOf records).mem_iff, List.mem_flatMap]
  simp [Keyed.get?_eq_none_iff]

/-- The observations of a field do not depend on the other fields of the records. -/
theorem filter_observations_congr {settings : InferenceSettings} {records records' : List Record}
    {n : String} (h : records.map (Keyed.get? n) = records'.map (Keyed.get? n)) :
    (observations settings records).filter (fun o => o.1 = n) =
      (observations settings records').filter (fun o => o.1 = n) := by
  have hsample : (sample settings.sampleSize records).map (Keyed.get? n) =
      (sample settings.sampleSize records').map (Keyed.get? n) := by
    unfold sample
    split
    · exact h
    · rw [List.map_take, List.map_take, h]
  have hof : ∀ rs : List Record,
      observationsOf rs n = (rs.map (Keyed.get? n)).map fun value => (n, value) := by
    intro rs
    rw [observationsOf, List.map_map]
    rfl
  unfold observations
  rw [filter_flatMap_observationsOf (firstAppearances_keysOf _).nodup,
    filter_flatMap_observationsOf (firstAppearances_keysOf _).nodup]
  simp only [mem_keysOf, hof, hsample]

end EntitySchema

/-! ## Fields that share a page -/

namespace Field

open Recognition

variable {reserved : Reserved} {key : String}

/-- The members of a component that has one text beside its identifier. -/
def probe (key : String) : Json.Members :=
  [(key, .string "x"), ("id", .number (.integer 1))]

/-- The sub-field of the text, which is unique unless the text stands on its page already. -/
def probed (key : String) (page : Page) : Field :=
  { Field.fresh key .string with unique := !decide ("x" ∈ page.texts) }

/-- The members are those of a component. -/
theorem classify_probe (hid : key ≠ "id") (hformats : key ≠ "formats") :
    classify (.object (probe key)) = .component := by
  have hmedia : isMedia (.object (probe key)) = false := by
    simp [isMedia, MediaAsset.ofValue, probe, Scope.ofValue, Scope.object, Scope.required,
      Scope.optional?, Keyed.get?, Keyed.find?, hformats, bind, Except.bind, Except.isOk,
      Except.toBool]
  have hcomponent : isComponent (.object (probe key)) = true := by
    simp [isComponent, componentMembers, probe, Scope.ofValue, Scope.required, Scope.optional?,
      Keyed.get?, Keyed.find?, hid, bind, Except.bind, Except.isOk, Except.toBool,
      Json.Value.nonNull?]
  simp [classify, classifyGiven, hmedia, hcomponent]

/-- The heading of a sub-field is longer than its two names together. -/
theorem length_subHeading (name key : String) :
    (subHeading name key).length = name.length + key.length + 1 := by
  have hdot : ".".length = 1 := rfl
  rw [subHeading, String.length_append, String.length_append, hdot]
  omega

/-- The heading of a sub-field is not the name of its field. -/
theorem subHeading_ne (name key : String) : subHeading name key ≠ name := by
  intro h
  have hlength := congrArg String.length h
  rw [length_subHeading] at hlength
  omega

/-- A field and a sub-field it could have differ in name. -/
theorem SubName.ne {m n : String} (h : SubName m n) : m ≠ n := by
  obtain ⟨key, rfl⟩ := h
  exact (subHeading_ne m key).symm

/-- Observing the text writes it on the page of the sub-field. -/
theorem observeKey_text (name : String) (b : Notebook) :
    observeKey name false (probe key) ([], b) key =
      ([probed key (b.page (subHeading name key))],
        b.write (subHeading name key) ((b.page (subHeading name key)).noteText "x")) := by
  have hclass : classify (.string "x") = .string := by decide
  simp [observeKey, observeFlat, probe, Keyed.get?, Keyed.find?, Json.Value.nonNull?, hclass,
    observeText, Field.fresh, FieldType.isTextual, mergeUnique, Keyed.upsert, probed]

/-- Observing the identifier writes nothing. -/
theorem observeKey_id (hid : key ≠ "id") (name : String) {f : Field} (hf : f.name = key)
    (b : Notebook) :
    observeKey name false (probe key) ([f], b) "id" = ([f, Field.fresh "id" .number], b) := by
  have hclass : classify (.number (.integer 1)) = .number := rfl
  simp [observeKey, observeFlat, probe, Keyed.get?, Keyed.find?, Json.Value.nonNull?, hclass,
    observeText, Field.fresh, Keyed.upsert, hf, hid]

/-- The keys found are that of the text, and that of the identifier unless it is reserved. -/
theorem exists_extend_probe (hid : key ≠ "id") (hkey : reserved.hasSubField key = false) :
    ∃ ids, (ids = [] ∨ ids = ["id"]) ∧
      Keyed.extend [] (((probe key).map Prod.fst).filter fun n => !reserved.hasSubField n) =
        key :: ids := by
  by_cases hidRes : reserved.hasSubField "id"
  · exact ⟨[], Or.inl rfl, by simp [probe, hkey, hidRes, Keyed.extend]⟩
  · exact ⟨["id"], Or.inr rfl, by simp [probe, hkey, hidRes, Keyed.extend, Ne.symm hid]⟩

/-- The sub-fields found are that of the text, and possibly that of the identifier. -/
theorem exists_foldl_observeKey (hid : key ≠ "id") (name : String) (b : Notebook)
    {ids : List String} (hids : ids = [] ∨ ids = ["id"]) :
    ∃ rest, (key :: ids).foldl (observeKey name false (probe key)) ([], b) =
      (probed key (b.page (subHeading name key)) :: rest,
        b.write (subHeading name key) ((b.page (subHeading name key)).noteText "x")) := by
  rw [List.foldl_cons, observeKey_text]
  rcases hids with rfl | rfl
  · exact ⟨[], rfl⟩
  · rw [List.foldl_cons, observeKey_id hid name rfl]
    exact ⟨[Field.fresh "id" .number], rfl⟩

/-- The first value of a field is looked into if it is a component. -/
theorem observe_none_of_component {members : Json.Members}
    (hclass : classify (.object members) = .component) (name : String) (b : Notebook) :
    observe reserved name none (some (.object members)) b =
      observeComponent reserved name members (Field.fresh name .component) b := by
  have hflat : observeFlat name name none (some (.object members)) b =
      (Field.fresh name .component, b) := by
    rw [← hclass]
    rfl
  unfold observe
  rw [hflat]
  exact if_pos ⟨rfl, hclass⟩

/-- **A probe.**  As the first value of a field, the component reads the page of its sub-field into the
unique flag, and leaves the text there. -/
theorem observe_probe (hid : key ≠ "id") (hformats : key ≠ "formats")
    (hkey : reserved.hasSubField key = false) {name : String} {b : Notebook}
    (hblank : b.page name = .blank) :
    ∃ page rest, observe reserved name none (some (.object (probe key))) b =
      ({ Field.fresh name .component with
          subFields := probed key (b.page (subHeading name key)) :: rest },
        (b.write name page).write (subHeading name key)
          ((b.page (subHeading name key)).noteText "x")) := by
  obtain ⟨ids, hids, hkeys⟩ := exists_extend_probe hid hkey
  -- With a blank page, the component is the first one, and its keys are all there are.
  let page : Page := ⟨key :: ids, 1, [], false⟩
  have hpage : Page.blank.noteComponent
      (((probe key).map Prod.fst).filter fun n => !reserved.hasSubField n) = page := by
    rw [Page.noteComponent, Page.blank, hkeys]
  obtain ⟨rest, hfold⟩ := exists_foldl_observeKey hid name (b.write name page) hids
  rw [Notebook.page_write_of_ne (subHeading_ne name key)] at hfold
  refine ⟨page, rest, ?_⟩
  rw [observe_none_of_component (classify_probe hid hformats), observeComponent, hblank]
  simp only [hpage]
  have hlate : decide (0 < Page.blank.components) = false := rfl
  have hfresh : (Field.fresh name .component).subFields = [] := rfl
  rw [hlate, hfresh, hfold]

/-- Some name is longer than all of some names. -/
theorem exists_longer (names : List String) : ∃ key : String, ∀ n ∈ names, n.length < key.length := by
  induction names with
  | nil => exact ⟨"", fun n hn => absurd hn List.not_mem_nil⟩
  | cons name names ih =>
    obtain ⟨key, hkey⟩ := ih
    refine ⟨subHeading name key, fun n hn => ?_⟩
    rw [length_subHeading]
    rcases List.mem_cons.mp hn with rfl | hn
    · omega
    · have hlonger := hkey n hn
      omega

/-- From some length on, all keys are free to use. -/
theorem exists_free_key (reserved : Reserved) :
    ∃ key : String, ∀ key' : String, key.length ≤ key'.length →
      key' ≠ "id" ∧ key' ≠ "formats" ∧ reserved.hasSubField key' = false := by
  obtain ⟨key, hkey⟩ := exists_longer ("id" :: "formats" :: reserved.subFields)
  refine ⟨key, fun key' hlength => ?_⟩
  have hfree : ∀ n ∈ "id" :: "formats" :: reserved.subFields, key' ≠ n := by
    intro n hn heq
    have hlonger := hkey n hn
    rw [← heq] at hlonger
    omega
  refine ⟨hfree "id" (by simp), hfree "formats" (by simp), ?_⟩
  rw [Reserved.hasSubField, List.contains_eq_mem, decide_eq_false_iff_not]
  intro hmem
  exact hfree key' (List.mem_cons_of_mem _ (List.mem_cons_of_mem _ hmem)) rfl

end Field

namespace Analyzer

open ContentModel.Field

/-- A probe of a new field shows the page of the sub-field in its descriptor, and writes it. -/
theorem observe_probe {reserved : Reserved} {key : String} (hid : key ≠ "id")
    (hformats : key ≠ "formats") (hkey : reserved.hasSubField key = false) {name : String}
    {a : Analyzer} (hnew : a.field? name = none) (hblank : a.notebook.page name = .blank) :
    ∃ page rest,
      (a.observe reserved (name, some (.object (probe key)))).field? name =
        some { Field.fresh name .component with
          subFields := probed key (a.notebook.page (subHeading name key)) :: rest } ∧
      (a.observe reserved (name, some (.object (probe key)))).notebook =
        (a.notebook.write name page).write (subHeading name key)
          ((a.notebook.page (subHeading name key)).noteText "x") := by
  obtain ⟨page, rest, hobserve⟩ := Field.observe_probe hid hformats hkey hblank
  refine ⟨page, rest, ?_, ?_⟩
  · rw [observe, hnew, hobserve]
    exact Keyed.get?_put_self _ _ _
  · rw [observe, hnew, hobserve]

/-- **Interference.**  A field whose name is that of a sub-field another could have can be observed to
have a value that was given to the other. -/
theorem exists_run_ne (reserved : Reserved) {m n : String} (h : SubName m n) :
    ∃ v w : Json.Value,
      (run reserved [(m, some v), (n, some w)]).field? n ≠
        (run reserved [(n, some w)]).field? n := by
  obtain ⟨k, rfl⟩ := h
  obtain ⟨key, hfree⟩ := exists_free_key reserved
  let n := subHeading m k
  let long := subHeading k key
  have hlength : key.length ≤ long.length := by
    rw [length_subHeading]
    omega
  obtain ⟨hid, hformats, hkey⟩ := hfree key (Nat.le_refl _)
  obtain ⟨hid', hformats', hkey'⟩ := hfree long hlength
  have hnm : n ≠ m := subHeading_ne m k
  have hnlong : n ≠ subHeading m long := by
    intro heq
    have hlengths := congrArg String.length heq
    simp only [n, long, length_subHeading] at hlengths
    omega
  -- The sub-field of the first component and that of the second have one page.
  have hshared : subHeading n key = subHeading m long := subHeading_subHeading m k key
  let a := fresh.observe reserved (m, some (.object (probe long)))
  obtain ⟨page, -, -, hnotebook⟩ :
      ∃ page rest, a.field? m = some _ ∧ a.notebook = (Notebook.empty.write m page).write _ _ :=
    observe_probe hid' hformats' hkey' rfl rfl
  have hnew : a.field? n = none := Keyed.get?_put_of_ne hnm _ _
  have hblank : a.notebook.page n = .blank := by
    rw [hnotebook, Notebook.page_write_of_ne hnlong, Notebook.page_write_of_ne hnm]
    rfl
  have hseen : "x" ∈ (a.notebook.page (subHeading n key)).texts := by
    rw [hnotebook, hshared, Notebook.page_write_self]
    show "x" ∈ (Page.blank.noteText "x").texts
    decide
  obtain ⟨-, rest, hafter, -⟩ := observe_probe hid hformats hkey hnew hblank
  obtain ⟨-, rest', halone, -⟩ :=
    observe_probe hid hformats hkey (rfl : fresh.field? n = none) rfl
  refine ⟨.object (probe long), .object (probe key), fun heq => ?_⟩
  have hprobed : probed key (a.notebook.page (subHeading n key)) = probed key .blank := by
    have hboth := hafter.symm.trans (heq.trans halone)
    simp only [Option.some.injEq, Field.mk.injEq, List.cons.injEq] at hboth
    exact hboth.2.2.2.2.1
  have hunique := congrArg Field.unique hprobed
  simp [probed, hseen, Page.blank] at hunique

end Analyzer

/-! ## Independence -/

/-- No name is that of a sub-field another could have. -/
def Field.Apart (names : Set String) : Prop :=
  ∀ m ∈ names, ∀ n ∈ names, ¬ Field.SubName m n

/-- Each field is what its own observations alone would make of it. -/
def Analyzer.Independent (reserved : Reserved) (names : Set String) : Prop :=
  ∀ os : List Observation, (∀ o ∈ os, o.1 ∈ names) → ∀ n ∈ names,
    (run reserved os).field? n = (run reserved (os.filter fun o => o.1 = n)).field? n

/-- Each field is the same in all records that have the same values in it. -/
def EntitySchema.Independent (settings : InferenceSettings) (names : Set String) : Prop :=
  ∀ (entity : String) (records records' : List Record),
    (∀ record ∈ records ++ records', ∀ key ∈ record.map Prod.fst, key ∈ names) → ∀ n ∈ names,
      records.map (Keyed.get? n) = records'.map (Keyed.get? n) →
        (infer settings entity records).field? n = (infer settings entity records').field? n

/-- A single record is looked at whatever the size of the sample. -/
theorem EntitySchema.observations_singleton (settings : InferenceSettings) (record : Record) :
    observations settings [record] =
      (keysOf [record]).map fun name => (name, Keyed.get? name record) := by
  have hsample : sample settings.sampleSize [record] = [record] := by
    unfold sample
    split
    · rfl
    · exact List.take_of_length_le (by rw [List.length_singleton]; omega)
  rw [observations, hsample]
  exact List.map_eq_flatMap.symm

/-- Every name observed is a key of the records. -/
theorem EntitySchema.key_of_mem_observations {settings : InferenceSettings} {records : List Record}
    {o : Observation} (ho : o ∈ observations settings records) :
    ∃ record ∈ records, o.1 ∈ record.map Prod.fst := by
  obtain ⟨name, hname, ho⟩ := List.mem_flatMap.mp ho
  rw [(firstAppearances_keysOf _).mem_iff, List.mem_flatMap] at hname
  obtain ⟨record, hrecord, hname⟩ := hname
  rw [fst_eq_of_mem_observationsOf ho]
  refine ⟨record, ?_, hname⟩
  unfold sample at hrecord
  split at hrecord
  · exact hrecord
  · exact List.mem_of_mem_take hrecord

/-- Two fields in one record, the keys of which are found in order. -/
theorem EntitySchema.observations_pair (settings : InferenceSettings) {m n : String} (hmn : m ≠ n)
    (v w : Json.Value) :
    observations settings [[(m, v), (n, w)]] = [(m, some v), (n, some w)] := by
  have hkeys : keysOf [[(m, v), (n, w)]] = [m, n] := by
    simp [keysOf, Keyed.extend, Ne.symm hmn]
  rw [observations_singleton, hkeys]
  simp [Keyed.get?, Keyed.find?, hmn]

/-- A single field in one record. -/
theorem EntitySchema.observations_single (settings : InferenceSettings) (n : String)
    (w : Json.Value) : observations settings [[(n, w)]] = [(n, some w)] := by
  have hkeys : keysOf [[(n, w)]] = [n] := by
    simp [keysOf, Keyed.extend]
  rw [observations_singleton, hkeys]
  simp [Keyed.get?, Keyed.find?]

/-- **Independence of observations.**  Fields are observed independently of each other exactly if they
share no page. -/
theorem Analyzer.independent_iff (reserved : Reserved) (names : Set String) :
    Independent reserved names ↔ Field.Apart names := by
  constructor
  · intro hindependent m hm n hn hsub
    obtain ⟨v, w, hne⟩ := exists_run_ne reserved hsub
    have hmn : m ≠ n := hsub.ne
    have heq := hindependent [(m, some v), (n, some w)] (by simp [hm, hn]) n hn
    simp only [List.filter_cons, hmn, decide_false, decide_true, if_true, List.filter_nil] at heq
    exact hne heq
  · intro hapart os hos n hn
    exact (alike_run hapart hos hn).field

/-- **Independence of inference.**  Fields are inferred independently of each other exactly if they
share no page. -/
theorem EntitySchema.independent_iff (settings : InferenceSettings) (names : Set String) :
    Independent settings names ↔ Field.Apart names := by
  constructor
  · intro hindependent m hm n hn hsub
    obtain ⟨v, w, hne⟩ := Analyzer.exists_run_ne settings.reserved hsub
    have hmn : m ≠ n := hsub.ne
    -- The field `n` has the same value with and without the field `m` in the record.
    have hnames : ∀ record ∈ [[(m, v), (n, w)]] ++ [[(n, w)]],
        ∀ key ∈ record.map Prod.fst, key ∈ names := by
      simp [hm, hn, -List.mem_map]
    have hsame : [[(m, v), (n, w)]].map (Keyed.get? n) = [[(n, w)]].map (Keyed.get? n) := by
      simp [Keyed.get?, Keyed.find?, hmn]
    have heq := hindependent "" [[(m, v), (n, w)]] [[(n, w)]] hnames n hn hsame
    rw [field?_infer, field?_infer, observations_pair settings hmn, observations_single] at heq
    exact hne heq
  · intro hapart entity records records' hnames n hn hsame
    have hobserved : ∀ rs, (∀ record ∈ rs, ∀ key ∈ record.map Prod.fst, key ∈ names) →
        ∀ o ∈ observations settings rs, o.1 ∈ names := by
      intro rs hrs o ho
      obtain ⟨record, hrecord, hkey⟩ := key_of_mem_observations ho
      exact hrs record hrecord _ hkey
    have hrecords := hobserved records fun r hr => hnames r (List.mem_append_left _ hr)
    have hrecords' := hobserved records' fun r hr => hnames r (List.mem_append_right _ hr)
    rw [field?_infer, field?_infer, (Analyzer.alike_run hapart hrecords hn).field,
      (Analyzer.alike_run hapart hrecords' hn).field, filter_observations_congr hsame]

/-- **Independence.**  Fields of given names are analyzed independently of each other, in any order of
observations as in the inference of an entity, exactly if no name is another one with a dot and a key
behind it. -/
theorem independent_iff_apart (settings : InferenceSettings) (names : Set String) :
    (Analyzer.Independent settings.reserved names ↔ Field.Apart names) ∧
      (EntitySchema.Independent settings names ↔ Field.Apart names) :=
  ⟨Analyzer.independent_iff settings.reserved names, EntitySchema.independent_iff settings names⟩

/-- A text under `b` in a component `a` counts as a text of the field `a.b`, which has no other. -/
theorem field?_run_of_dotted_name :
    let component : Json.Value := .object [("id", .number (.integer 1)), ("b", .string "x")]
    let both : List Observation := [("a", some component), ("a.b", some (.string "x"))]
    ((Analyzer.run .standard both).field? "a.b").map Field.unique = some false ∧
      ((Analyzer.run .standard (both.filter fun o => o.1 = "a.b")).field? "a.b").map Field.unique =
        some true := by
  decide

end ContentModel

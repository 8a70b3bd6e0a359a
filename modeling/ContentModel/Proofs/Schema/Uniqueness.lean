import ContentModel.Proofs.Schema.Components
import ContentModel.Proofs.Schema.Independence

/-
# When a field is unique

A field is unique exactly if its type is textual and no text occurs twice among its values, also among those
seen while it had another type: its page counts every text, and the flag is read off the page when the type
becomes textual.  The same holds for the sub-fields of a component, over what the components hold under
their keys.

Main statements: `Field.counts_observeFlat` (one value), `Field.CountsKeys.observeComponent` (one component),
`Field.counts_observe` and `Field.countsComponents_observe` (one observation) and `Analyzer.counts_run`.
-/

namespace ContentModel

open Recognition

/-! ## Texts and the page that counts them -/

/-- The texts among values, in order. -/
def textsOf (values : List (Option Json.Value)) : List String :=
  values.filterMap fun v =>
    match v with
    | some (.string s) => some s
    | _ => none

/-- The texts of one more value come last. -/
theorem textsOf_concat (values : List (Option Json.Value)) (v : Option Json.Value) :
    textsOf (values ++ [v]) = textsOf values ++ textsOf [v] :=
  List.filterMap_append ..

/-- A null value has no text, and neither has an absent one. -/
theorem textsOf_bind_nonNull? (value : Option Json.Value) :
    textsOf [value.bind Json.Value.nonNull?] = textsOf [value] := by
  cases value with
  | none => rfl
  | some v => cases v <;> rfl

/-- The page has seen just these texts, and knows whether one occurs twice. -/
structure Page.Notes (texts : List String) (p : Page) : Prop where
  mem_iff : ∀ s, s ∈ p.texts ↔ s ∈ texts
  repeated_iff : p.repeated = true ↔ ¬ texts.Nodup

/-- Nothing was seen on a blank page. -/
theorem Page.notes_blank : Page.Notes [] .blank where
  mem_iff := fun _ => Iff.rfl
  repeated_iff := by simp [Page.blank]

/-- **Noting a text.**  It repeats one that the page has seen, or it is a new one. -/
theorem Page.Notes.noteText {texts : List String} {p : Page} (h : p.Notes texts) (s : String) :
    (p.noteText s).Notes (texts ++ [s]) := by
  have hnodup : (texts ++ [s]).Nodup ↔ s ∉ p.texts ∧ texts.Nodup := by
    rw [← List.concat_eq_append, List.nodup_concat, h.mem_iff]
  rw [Page.noteText]
  split
  · rename_i hs
    refine ⟨fun t => ?_, ?_⟩
    · rw [List.mem_append, List.mem_singleton, ← h.mem_iff]
      exact ⟨Or.inl, fun ht => ht.elim id fun heq => heq ▸ hs⟩
    · simp [hnodup, hs]
  · rename_i hs
    refine ⟨fun t => ?_, ?_⟩
    · rw [List.mem_cons, h.mem_iff, List.mem_append, List.mem_singleton, or_comm]
    · simp [hnodup, hs, h.repeated_iff]

namespace Field

/-- The descriptor is unique exactly if its type is textual and no text occurs twice. -/
def Counts (texts : List String) (f : Field) : Prop :=
  f.unique = true ↔ f.type.isTextual = true ∧ texts.Nodup

/-! ## One value -/

section OneValue

variable {texts : List String} {f : Field} {heading : String} {b : Notebook}

/-- A new descriptor has seen no text. -/
theorem counts_fresh (name : String) (type : FieldType) : (fresh name type).Counts [] := by
  simp [Counts, fresh]

/-- A textual type stays textual. -/
theorem isTextual_mergeType {existing : FieldType} (h : existing.isTextual = true)
    (observed : FieldType) : (mergeType existing observed).isTextual = true := by
  have hne : existing ≠ .nullish := by
    rintro rfl
    cases h
  rw [mergeType_of_ne_nullish hne]
  split
  · rfl
  · exact h

/-- **A new type.**  When a field becomes textual, the flag is read off its page. -/
theorem Counts.retype (h : f.Counts texts) {p : Page} (hp : p.Notes texts) (observed : FieldType) :
    (f.retype p.repeated observed).Counts texts := by
  rw [Field.retype]
  split
  · exact h
  · by_cases hwas : f.type.isTextual = true
    · have his := isTextual_mergeType hwas observed
      simpa [Counts, hwas, his] using h
    · -- The flag says nothing of a field that was not textual; its page counted all the same.
      have hnot : f.unique ≠ true := fun hu => hwas (h.mp hu).1
      rw [Bool.not_eq_true] at hwas
      by_cases his : (mergeType f.type observed).isTextual = true
      · have hflag : (!p.repeated) = true ↔ texts.Nodup := by
          rw [Bool.not_eq_true', ← Bool.not_eq_true, hp.repeated_iff, not_not]
        simpa [Counts, his, hwas] using hflag
      · simp [Counts, his, hnot]

/-- **A text.**  It is counted on the page, and the flag is lost if it was seen before. -/
theorem Counts.observeText (h : f.Counts texts) (hp : (b.page heading).Notes texts) (v : Json.Value) :
    (Field.observeText heading v f b).1.Counts (texts ++ textsOf [some v]) ∧
      ((Field.observeText heading v f b).2.page heading).Notes (texts ++ textsOf [some v]) := by
  rcases observeText_cases heading v f b with ⟨s, unique, rfl, hread, hunique⟩ | ⟨hother, hread⟩
  · rw [hread]
    constructor
    · show Counts (texts ++ [s]) { f with unique }
      rw [Counts, ← List.concat_eq_append, List.nodup_concat, ← hp.mem_iff, hunique]
      by_cases htextual : f.type.isTextual = true
      · have hflag : f.unique = true ↔ texts.Nodup := by simpa [Counts, htextual] using h
        simp [htextual, mergeUnique, hflag, and_comm]
      · have hnot : f.unique ≠ true := fun hu => htextual (h.mp hu).1
        simp [htextual, hnot]
    · rw [Notebook.page_write_self]
      exact hp.noteText s
  · have hnone : textsOf [some v] = [] := by
      cases v <;> first | rfl | exact absurd rfl (hother _)
    rw [hread, hnone, List.append_nil]
    exact ⟨h, hp⟩

/-- **One value.**  A look from outside counts the texts of a value, which may be absent. -/
theorem counts_observeFlat {existing : Option Field} (hexisting : ∀ f ∈ existing, f.Counts texts)
    (hnew : existing = none → texts = []) (hp : (b.page heading).Notes texts) (name : String)
    (value : Option Json.Value) :
    (observeFlat heading name existing value b).1.Counts (texts ++ textsOf [value]) ∧
      ((observeFlat heading name existing value b).2.page heading).Notes (texts ++ textsOf [value]) := by
  rw [← textsOf_bind_nonNull? value]
  cases existing with
  | none =>
    obtain rfl := hnew rfl
    cases hvalue : value.bind Json.Value.nonNull? with
    | none =>
      simp only [observeFlat, hvalue]
      exact ⟨counts_fresh name .nullish, hp⟩
    | some v =>
      simp only [observeFlat, hvalue]
      exact (counts_fresh name (classify v)).observeText hp v
  | some f =>
    have hf := hexisting f rfl
    cases hvalue : value.bind Json.Value.nonNull? with
    | none =>
      simp only [observeFlat, hvalue]
      rw [show textsOf [none] = [] from rfl, List.append_nil]
      exact ⟨hf, hp⟩
    | some v =>
      simp only [observeFlat, hvalue]
      exact (hf.retype hp _).observeText hp v

end OneValue

/-! ## The sub-fields of a component -/

/-- Notebook and descriptors count the texts that were seen under each key; a key without descriptor was
not seen. -/
structure CountsKeys (seen : String → List String) (heading : String) (b : Notebook)
    (fs : List Field) : Prop where
  distinct : (fs.map Field.name).Nodup
  new : ∀ key, key ∉ fs.map Field.name → seen key = []
  pages : ∀ key, (b.page (subHeading heading key)).Notes (seen key)
  fields : ∀ g ∈ fs, g.Counts (seen g.name)

section Keys

variable {seen : String → List String} {heading : String} {b : Notebook} {fs : List Field}

/-- Before anything was seen, the pages are blank and there are no descriptors. -/
theorem CountsKeys.nil (hb : ∀ key, b.page (subHeading heading key) = .blank) :
    CountsKeys (fun _ => []) heading b [] where
  distinct := List.nodup_nil
  new := fun _ _ => rfl
  pages := fun key => hb key ▸ Page.notes_blank
  fields := fun _ hg => absurd hg List.not_mem_nil

/-- The pages of sub-fields are all that matters. -/
theorem CountsKeys.congr (h : CountsKeys seen heading b fs) {b' : Notebook}
    (hpages : ∀ key, b'.page (subHeading heading key) = b.page (subHeading heading key)) :
    CountsKeys seen heading b' fs where
  distinct := h.distinct
  new := h.new
  pages := fun key => hpages key ▸ h.pages key
  fields := h.fields

/-- Sub-fields of different keys have different pages. -/
theorem subHeading_injective (heading : String) : Function.Injective (subHeading heading) := by
  intro key key' h
  have hchars := congrArg String.toList h
  rw [toList_subHeading, toList_subHeading] at hchars
  exact String.toList_inj.mp (List.cons.inj (List.append_cancel_left hchars)).2

/-- **One key.**  Observing a key counts the text that the component holds under it. -/
theorem CountsKeys.observeKey (h : CountsKeys seen heading b fs) (late : Bool)
    (members : Json.Members) (key : String) :
    CountsKeys (Function.update seen key (seen key ++ textsOf [Keyed.get? key members])) heading
      (Field.observeKey heading late members (fs, b) key).2
      (Field.observeKey heading late members (fs, b) key).1 := by
  have hexisting : ∀ f ∈ Keyed.find? Field.name key fs, f.name = key ∧ f.Counts (seen key) := by
    intro f hf
    obtain ⟨hmem, rfl⟩ := Keyed.mem_and_name_of_find? hf
    exact ⟨rfl, h.fields f hmem⟩
  have hnew : Keyed.find? Field.name key fs = none → seen key = [] := fun hnone =>
    h.new key (Keyed.find?_eq_none_iff.mp hnone)
  have hname := name_observeFlat (subHeading heading key) (fun f hf => (hexisting f hf).1)
    (Keyed.get? key members) b
  have hcounts := counts_observeFlat (fun f hf => (hexisting f hf).2) hnew (h.pages key) key
    (Keyed.get? key members)
  have hframe := (within_observeKey heading late members fs key).frame b
  -- That a late key is not required matters neither to its name nor to its texts.
  obtain ⟨g, hput, hg⟩ : ∃ g,
      (Field.observeKey heading late members (fs, b) key).1 = Keyed.upsert Field.name g fs ∧
        g.name = key ∧ g.Counts (seen key ++ textsOf [Keyed.get? key members]) := by
    refine ⟨_, rfl, ?_⟩
    dsimp only
    split
    · exact ⟨hname, hcounts.1⟩
    · exact ⟨hname, hcounts.1⟩
  obtain ⟨rfl, hg⟩ := hg
  rw [hput]
  constructor
  · exact Keyed.nodup_map_upsert h.distinct
  · intro k hk
    rw [Keyed.mem_map_upsert, not_or] at hk
    rw [Function.update_of_ne hk.1]
    exact h.new k hk.2
  · intro k
    by_cases hk : k = g.name
    · rw [hk, Function.update_self]
      exact hcounts.2
    · rw [Function.update_of_ne hk, hframe _ fun heq => hk (subHeading_injective heading heq)]
      exact h.pages k
  · intro f hf
    rcases Keyed.eq_or_mem_of_mem_upsert h.distinct hf with rfl | ⟨hf, hne⟩
    · rwa [Function.update_self]
    · rw [Function.update_of_ne hne]
      exact h.fields f hf

/-- **All keys.**  Observing keys counts the text that the component holds under each of them. -/
theorem CountsKeys.foldl_observeKey (h : CountsKeys seen heading b fs) (late : Bool)
    (members : Json.Members) {keys : List String} (hkeys : keys.Nodup) :
    let after := keys.foldl (Field.observeKey heading late members) (fs, b)
    CountsKeys
      (fun key => if key ∈ keys then seen key ++ textsOf [Keyed.get? key members] else seen key)
      heading after.2 after.1 := by
  induction keys using List.reverseRecOn with
  | nil => simpa using h
  | append_singleton keys key ih =>
    rw [← List.concat_eq_append, List.nodup_concat] at hkeys
    obtain ⟨hkey, hkeys⟩ := hkeys
    have hstep := (ih hkeys).observeKey late members key
    dsimp only at hstep ⊢
    rw [List.foldl_concat]
    convert hstep using 1
    funext k
    by_cases hk : k = key
    · -- The key was not gone over before, so what was seen under it is what was seen at first.
      subst hk
      simp [hkey]
    · simp [hk]

end Keys

/-- The texts that components hold under a key, if it is not reserved. -/
def textsUnder (reserved : Reserved) (components : List Record) (key : String) : List String :=
  if reserved.hasSubField key then [] else textsOf (components.map (Keyed.get? key))

/-- No component, no text. -/
theorem textsUnder_nil (reserved : Reserved) : textsUnder reserved [] = fun _ => [] :=
  funext fun _ => ite_self _

/-- One more component adds the texts under the keys that are known then. -/
theorem textsUnder_concat (reserved : Reserved) (components : List Record) (members : Record)
    (key : String) :
    textsUnder reserved (components ++ [members]) key =
      if key ∈ knownKeys reserved (components ++ [members]) then
        textsUnder reserved components key ++ textsOf [Keyed.get? key members]
      else textsUnder reserved components key := by
  by_cases hreserved : reserved.hasSubField key = true
  · have hkey : key ∉ knownKeys reserved (components ++ [members]) := by
      intro hkey
      rw [hasSubField_of_mem_knownKeys hkey] at hreserved
      cases hreserved
    simp [textsUnder, hreserved, hkey]
  · have htexts : textsOf ((components ++ [members]).map (Keyed.get? key)) =
        textsOf (components.map (Keyed.get? key)) ++ textsOf [Keyed.get? key members] := by
      rw [List.map_append, List.map_singleton, textsOf_concat]
    rw [Bool.not_eq_true] at hreserved
    simp only [textsUnder, hreserved, Bool.false_eq_true, if_false, htexts]
    split
    · rfl
    · rename_i hkey
      have hnone := value?_eq_none_of_notMem hreserved hkey
        (List.mem_append_right _ List.mem_cons_self)
      rw [Record.value?] at hnone
      rw [← textsOf_bind_nonNull?, hnone]
      exact List.append_nil _

section Component

variable {reserved : Reserved} {name : String} {f : Field} {b : Notebook}

/-- Observing keys leaves the page of the field. -/
theorem page_foldl_observeKey (heading : String) (late : Bool) (members : Json.Members)
    (keys : List String) (fs : List Field) (b : Notebook) :
    (keys.foldl (Field.observeKey heading late members) (fs, b)).2.page heading =
      b.page heading := by
  let S : String → Prop := fun k => ∃ key, k = subHeading heading key
  have hkey : ∀ fs key, Within S fun b => Field.observeKey heading late members (fs, b) key :=
    fun fs key => (within_observeKey heading late members fs key).mono fun k hk => ⟨key, hk⟩
  refine (Within.foldl hkey keys fs).frame b heading ?_
  rintro ⟨key, hsame⟩
  exact subHeading_ne heading key hsame.symm

/-- A component holds no text of its own. -/
theorem notes_observeComponent {texts : List String} (hp : (b.page name).Notes texts)
    (members : Json.Members) :
    ((Field.observeComponent reserved name members f b).2.page name).Notes texts := by
  unfold Field.observeComponent
  dsimp only
  rw [page_foldl_observeKey, Notebook.page_write_self]
  exact ⟨hp.mem_iff, hp.repeated_iff⟩

/-- **One component.**  Looking into it counts the texts that it holds under its keys. -/
theorem CountsKeys.observeComponent {components : List Record}
    (h : CountsKeys (textsUnder reserved components) name b f.subFields)
    (hkeys : (b.page name).keys = knownKeys reserved components) (members : Record) :
    let after := Field.observeComponent reserved name members f b
    CountsKeys (textsUnder reserved (components ++ [members])) name after.2 after.1.subFields := by
  let names := (members.map Prod.fst).filter fun key => !reserved.hasSubField key
  let page := (b.page name).noteComponent names
  have hknown : page.keys = knownKeys reserved (components ++ [members]) := by
    rw [knownKeys_concat, ← hkeys]
    rfl
  have hwritten : CountsKeys (textsUnder reserved components) name (b.write name page) f.subFields :=
    h.congr fun key => Notebook.page_write_of_ne (subHeading_ne name key) page b
  have hfold := hwritten.foldl_observeKey (decide (0 < (b.page name).components)) members
    (hknown ▸ nodup_knownKeys)
  rw [funext (textsUnder_concat reserved components members), ← hknown]
  exact hfold

end Component

/-! ## One observation -/

/-- Notebook and descriptor count the texts in the components that records hold in the field, as long as it
may be one of components. -/
def CountsComponents (reserved : Reserved) (records : List Record) (b : Notebook) (f : Field) : Prop :=
  f.type = .component ∨ f.type = .nullish →
    CountsKeys (textsUnder reserved (componentsIn f.name records)) f.name b f.subFields

section Observation

variable {reserved : Reserved} {name : String} {existing : Option Field} {b : Notebook}

/-- **One observation.**  It counts the text of the value. -/
theorem counts_observe (reserved : Reserved) {texts : List String}
    (hexisting : ∀ f ∈ existing, f.Counts texts) (hnew : existing = none → texts = [])
    (hp : (b.page name).Notes texts) (value : Option Json.Value) :
    (observe reserved name existing value b).1.Counts (texts ++ textsOf [value]) ∧
      ((observe reserved name existing value b).2.page name).Notes (texts ++ textsOf [value]) := by
  obtain ⟨hcounts, hnotes⟩ := counts_observeFlat hexisting hnew hp name value
  rcases observe_cases reserved name existing value b with h | ⟨members, -, -, h⟩
  · rw [h]
    exact ⟨hcounts, hnotes⟩
  · rw [h]
    exact ⟨hcounts, notes_observeComponent hnotes members⟩

/-- **The components of one value.**  If the look at a value from outside leaves descriptors that count the
texts in the earlier components, the observation leaves such that count the texts in all. -/
theorem countsComponents_observe {records : List Record} {record : Record}
    (hexisting : ∀ f ∈ existing, f.name = name)
    (hflat : (observeFlat name name existing (Keyed.get? name record) b).1.CountsComponents reserved
      records b)
    (hkeys : (observeFlat name name existing (Keyed.get? name record) b).1.type = .component →
      (b.page name).keys = knownKeys reserved (componentsIn name records)) :
    (observe reserved name existing (Keyed.get? name record) b).1.CountsComponents reserved
      (records ++ [record]) (observe reserved name existing (Keyed.get? name record) b).2 := by
  have hname := name_observeFlat name hexisting (Keyed.get? name record) b
  have hpage := discovery_observeFlat name name existing (Keyed.get? name record) b name
  have hframe := (within_observeFlat name name existing (Keyed.get? name record)).frame b
  have hadds := observe_componentsIn reserved hexisting records record b
  intro htype
  rw [type_observe] at htype
  rw [name_observe reserved hexisting]
  generalize observeFlat name name existing (Keyed.get? name record) b = looked at *
  -- The look from outside wrote on the page of the field, which is none of a sub-field.
  have hlooked : CountsKeys (textsUnder reserved (componentsIn name records)) name looked.2
      looked.1.subFields := by
    rw [← hname]
    exact (hflat htype).congr fun key => hframe _ (hname ▸ subHeading_ne _ key)
  rcases hadds htype with ⟨h, hmembers⟩ | ⟨members, hcomponent, h, hmembers⟩
  · rw [h, hmembers]
    exact hlooked
  · rw [h, hmembers]
    refine hlooked.observeComponent ?_ members
    rw [← hkeys hcomponent]
    exact congrArg Prod.fst hpage

end Observation

/-! ## All observations of a field -/

section Records

variable {reserved : Reserved} {name : String} {records : List Record} {b : Notebook}

/-- **All records.**  They leave a descriptor and a page that count the texts in the field. -/
theorem counts_observeRecords (reserved : Reserved) (records : List Record)
    (hb : b.page name = .blank) :
    let after := observeRecords reserved name records b
    (∀ f ∈ after.1, f.Counts (textsOf (records.map (Keyed.get? name)))) ∧
      (after.2.page name).Notes (textsOf (records.map (Keyed.get? name))) := by
  induction records using List.reverseRecOn with
  | nil => exact ⟨nofun, hb ▸ Page.notes_blank⟩
  | append_singleton records record ih =>
    have hnew : (observeRecords reserved name records b).1 = none →
        textsOf (records.map (Keyed.get? name)) = [] := by
      intro hnone
      by_cases hfirst : records = []
      · rw [hfirst]
        rfl
      · obtain ⟨f, hf, -⟩ := exists_observeRecords reserved name hfirst b
        rw [hf] at hnone
        cases hnone
    have hstep := counts_observe reserved ih.1 hnew ih.2 (Keyed.get? name record)
    rw [observeRecords_concat, List.map_append, List.map_singleton, textsOf_concat]
    refine ⟨fun f hf => ?_, hstep.2⟩
    obtain rfl := Option.some.inj hf
    exact hstep.1

/-- **All components.**  Records leave descriptors of sub-fields that count the texts in the components. -/
theorem countsComponents_observeRecords (hb : ∀ k, b.page k = .blank) {f : Field}
    (hf : (observeRecords reserved name records b).1 = some f) :
    f.CountsComponents reserved records (observeRecords reserved name records b).2 := by
  induction records using List.reverseRecOn generalizing f with
  | nil => cases hf
  | append_singleton records record ih =>
    rw [observeRecords_concat] at hf ⊢
    obtain rfl := Option.some.inj hf
    dsimp only
    by_cases hfirst : records = []
    · subst hfirst
      refine countsComponents_observe nofun (fun _ => ?_) fun _ => ?_
      · obtain ⟨unique, hlooked⟩ := observeFlat_none name name (Keyed.get? name record) b
        show CountsKeys _ _ b (observeFlat name name none (Keyed.get? name record) b).1.subFields
        rw [hlooked, componentsIn, List.filterMap_nil, textsUnder_nil]
        exact CountsKeys.nil fun key => hb _
      · show (b.page name).keys = []
        rw [hb]
        rfl
    · obtain ⟨g, hg, hname, -⟩ := exists_observeRecords reserved name hfirst b
      have hdiscovers := discovers_observeRecords (congrArg Page.discovery (hb name)) hg
      have ih := ih hg
      subst hname
      rw [hg]
      refine countsComponents_observe (by simp) (fun htype => ?_) fun hcomponent => ?_
      · obtain ⟨hwas, hkept⟩ := subFields_observeFlat htype
        rw [hkept, name_observeFlat g.name (by simp)]
        exact ih hwas
      · exact congrArg Prod.fst (hdiscovers.tracks (subFields_observeFlat (Or.inl hcomponent)).1).page

end Records

end Field

/-! ## A run of one field -/

/-- The objects among values, media assets apart, in order.  In a field of components they are its
components. -/
def componentsAmong (values : List (Option Json.Value)) : List Record :=
  values.filterMap fun value => value.bind plainMembers?

/-- A record that holds a value under a name, if it is not absent, and nothing else. -/
def Record.holding (name : String) (value : Option Json.Value) : Record :=
  (value.map fun v => (name, v)).toList

/-- Values and records that hold them are the same. -/
theorem Record.map_get?_holding (name : String) (values : List (Option Json.Value)) :
    (values.map (holding name)).map (Keyed.get? name) = values := by
  have hget : Keyed.get? name ∘ holding name = id := by
    funext value
    cases value <;> simp [holding, Keyed.get?, Keyed.find?]
  rw [List.map_map, hget, List.map_id]

/-- The components that records hold are those among their values. -/
theorem componentsIn_eq_componentsAmong (name : String) (records : List Record) :
    componentsIn name records = componentsAmong (records.map (Keyed.get? name)) := by
  rw [componentsIn, componentsAmong, List.filterMap_map]
  exact List.filterMap_congr fun record _ => Field.bind_plainMembers?_value? name record

namespace Analyzer

/-- **Uniqueness of a run.**  After any values of one field, present or not, the field is unique exactly if
its type is textual and no text occurs twice among them, whatever type the field had when it was seen.  If
it is one of components, the same holds of each sub-field and what the components hold under its key. -/
theorem counts_run (reserved : Reserved) (name : String) {values : List (Option Json.Value)}
    (h : values ≠ []) :
    ∃ f, (run reserved (values.map fun value => (name, value))).field? name = some f ∧
      f.Counts (textsOf values) ∧
      (f.type = .component → ∀ g ∈ f.subFields,
        g.Counts (textsOf ((componentsAmong values).map (Keyed.get? g.name)))) := by
  -- The run of the values is that of records which hold one of them each.
  let records := values.map (Record.holding name)
  have hvalues : records.map (Keyed.get? name) = values := Record.map_get?_holding name values
  have hobservations : values.map (fun value => (name, value)) = observationsOf records name := by
    rw [observationsOf, ← hvalues, List.map_map]
    rfl
  have hrecords : records ≠ [] := fun heq => h (List.map_eq_nil_iff.mp heq)
  obtain ⟨f, hf, hname, -⟩ := Field.exists_observeRecords reserved name hrecords Notebook.empty
  have hrun : (run reserved (values.map fun value => (name, value))).field? name = some f := by
    rw [hobservations, run, ← hf]
    exact (foldl_observationsOf (a := fresh) rfl records).1
  have hcounts := (Field.counts_observeRecords reserved records (b := .empty) rfl).1 f hf
  have hsub := Field.countsComponents_observeRecords (fun _ => rfl) hf
  have hdiscovers := Field.discovers_observeRecords rfl hf
  rw [hvalues] at hcounts
  refine ⟨f, hrun, hcounts, fun hcomponent g hg => ?_⟩
  have hknown : g.name ∈ knownKeys reserved (componentsIn f.name records) := by
    rw [← (hdiscovers.tracks (Or.inl hcomponent)).names]
    exact List.mem_map_of_mem hg
  have hg := (hsub (Or.inl hcomponent)).fields g hg
  rw [Field.textsUnder, hasSubField_of_mem_knownKeys hknown, if_neg Bool.false_ne_true, hname,
    componentsIn_eq_componentsAmong, hvalues] at hg
  exact hg

/-- Authors: first none, then two with the same birthday, a text, and one whose birthday has markup. -/
def authors : List (Option Json.Value) :=
  [some .null,
    some (.object [("id", .number (.integer 1)), ("name", .string "Ann"), ("born", .string "1999-12-31")]),
    none,
    some (.object [("name", .string "Bo"), ("born", .string "1999-12-31")]),
    some (.string "Ann"),
    some (.object [("name", .null), ("born", .string "<b>2000</b>")])]

/-- The names are unique, the birthdays are not: the dates before the markup count. -/
theorem counts_run_authors :
    let author : Field :=
      ⟨"author", .component, false, false,
        [⟨"name", .string, false, true, []⟩, ⟨"born", .richText, true, false, []⟩]⟩
    authors ≠ [] ∧
      (run .standard (authors.map fun value => ("author", value))).field? "author" = some author ∧
      author.Counts (textsOf authors) ∧
      ∀ g ∈ author.subFields,
        g.Counts (textsOf ((componentsAmong authors).map (Keyed.get? g.name))) := by
  intro author
  have hsome : authors ≠ [] := by decide
  have hrun : (run .standard (authors.map fun value => ("author", value))).field? "author" =
      some author := by
    decide +kernel
  obtain ⟨f, hf, hcounts, hsub⟩ := counts_run .standard "author" hsome
  obtain rfl := Option.some.inj (hf.symm.trans hrun)
  exact ⟨hsome, hrun, hcounts, hsub rfl⟩

end Analyzer

end ContentModel

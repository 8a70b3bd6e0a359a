import ContentModel.Proofs.Schema.Inference

/-
# What an inferred schema says of components

The sub-fields of a component field are found value by value: the page of the field lists their keys and
counts the components, and the descriptor lists their descriptors.  Page and descriptor say the same of
the components seen so far, and each observation keeps it so: the sub-fields describe the components as
the fields of an entity describe its records.

Main statements: `Field.tracks_observeComponent` (one more component), `Field.observe_componentsIn` (which
values are looked into), `Field.Discovers.observe` (one more value of any kind) and
`Schema.infer_describesComponents`.
-/

namespace ContentModel

open Recognition

/-! ## The components that records hold -/

/-- The members of an object that is no media asset. -/
def Recognition.plainMembers? : Json.Value → Option Record
  | .object members => if isMedia (.object members) then none else some members
  | _ => none

/-- The objects that records hold in a field, media assets apart, in order. -/
def componentsIn (name : String) (records : List Record) : List Record :=
  records.filterMap fun record => (record.value? name).bind plainMembers?

/-- The keys of components that are not reserved, component by component. -/
def componentKeys (reserved : Reserved) (components : List Record) : List String :=
  components.flatMap fun c => (c.map Prod.fst).filter fun key => !reserved.hasSubField key

/-- One more record adds what it holds in the field. -/
theorem componentsIn_concat (name : String) (records : List Record) (record : Record) :
    componentsIn name (records ++ [record]) =
      componentsIn name records ++ ((record.value? name).bind plainMembers?).toList := by
  rw [componentsIn, List.filterMap_append, ← componentsIn]
  cases h : (record.value? name).bind plainMembers? <;> simp [h]

/-- The distinct keys of components that are not reserved, in order of first appearance. -/
def knownKeys (reserved : Reserved) (components : List Record) : List String :=
  Keyed.extend [] (componentKeys reserved components)

section KnownKeys

variable {reserved : Reserved} {components : List Record} {key : String}

/-- Keys are known once each. -/
theorem nodup_knownKeys : (knownKeys reserved components).Nodup :=
  Keyed.nodup_extend List.nodup_nil _

/-- One more component adds its keys. -/
theorem knownKeys_concat (members : Record) :
    knownKeys reserved (components ++ [members]) =
      Keyed.extend (knownKeys reserved components)
        ((members.map Prod.fst).filter fun key => !reserved.hasSubField key) := by
  rw [knownKeys, knownKeys, ← Keyed.extend_append]
  simp [componentKeys]

/-- No known key is reserved. -/
theorem hasSubField_of_mem_knownKeys (h : key ∈ knownKeys reserved components) :
    reserved.hasSubField key = false := by
  rw [knownKeys, Keyed.mem_extend] at h
  rcases h with h | h
  · cases h
  · obtain ⟨c, -, hkey⟩ := List.mem_flatMap.mp h
    simpa using (List.mem_filter.mp hkey).2

/-- Components hold nothing under a key that is not known, unless it is reserved. -/
theorem value?_eq_none_of_notMem (hreserved : reserved.hasSubField key = false)
    (hkey : key ∉ knownKeys reserved components) {c : Record} (hc : c ∈ components) :
    c.value? key = none := by
  have hget : Keyed.get? key c = none := by
    rw [Keyed.get?_eq_none_iff]
    intro hmem
    refine hkey (Keyed.mem_extend.mpr (Or.inr ?_))
    exact List.mem_flatMap.mpr ⟨c, hc, List.mem_filter.mpr ⟨hmem, by rw [hreserved]; rfl⟩⟩
  rw [Record.value?, hget, Option.bind_none]

end KnownKeys

/-! ## What a page says of components -/

/-- The keys of the components seen, and how many they were. -/
def Page.discovery (p : Page) : List String × Nat :=
  (p.keys, p.components)

/-- Noting a text says nothing of components. -/
@[simp]
theorem Page.discovery_noteText (s : String) (p : Page) :
    (p.noteText s).discovery = p.discovery := by
  unfold noteText
  split <;> rfl

namespace Field

/-- Reading a text says nothing of components. -/
theorem discovery_observeText (heading : String) (v : Json.Value) (f : Field) (b : Notebook)
    (k : String) : ((observeText heading v f b).2.page k).discovery = (b.page k).discovery := by
  rcases observeText_cases heading v f b with ⟨s, unique, -, h, -⟩ | ⟨-, h⟩
  · rw [h]
    by_cases hk : k = heading
    · rw [hk, Notebook.page_write_self, Page.discovery_noteText]
    · rw [Notebook.page_write_of_ne hk]
  · rw [h]

/-- Looking at a value without looking into it says nothing of components. -/
theorem discovery_observeFlat (heading name : String) (existing : Option Field)
    (value : Option Json.Value) (b : Notebook) (k : String) :
    ((observeFlat heading name existing value b).2.page k).discovery = (b.page k).discovery := by
  unfold observeFlat
  cases existing with
  | none =>
    cases value.bind Json.Value.nonNull? with
    | none => rfl
    | some v => exact discovery_observeText heading v _ b k
  | some f =>
    cases value.bind Json.Value.nonNull? with
    | none => rfl
    | some v => exact discovery_observeText heading v _ b k

/-- Observing sub-fields says nothing of components inside a component. -/
theorem discovery_foldl_observeKey (heading : String) (late : Bool) (members : Json.Members)
    (keys : List String) (state : List Field × Notebook) (k : String) :
    ((keys.foldl (observeKey heading late members) state).2.page k).discovery =
      (state.2.page k).discovery := by
  induction keys generalizing state with
  | nil => rfl
  | cons key keys ih =>
    rw [List.foldl_cons, ih]
    exact discovery_observeFlat _ _ _ _ _ _

/-- The page of a field says of components what a component adds; all others say what they said. -/
theorem discovery_observeComponent (reserved : Reserved) (name : String) (members : Json.Members)
    (f : Field) (b : Notebook) (k : String) :
    ((observeComponent reserved name members f b).2.page k).discovery =
      if k = name then
        ((b.page name).noteComponent
          ((members.map Prod.fst).filter fun key => !reserved.hasSubField key)).discovery
      else (b.page k).discovery := by
  have hfold := discovery_foldl_observeKey name (decide (0 < (b.page name).components)) members
  unfold observeComponent
  dsimp only
  rw [hfold]
  by_cases hk : k = name
  · rw [if_pos hk, hk, Notebook.page_write_self]
  · rw [if_neg hk, Notebook.page_write_of_ne hk]

/-- **Other fields.**  Observing a field says nothing of the components of another. -/
theorem discovery_observe_of_ne (reserved : Reserved) {name k : String} (hk : k ≠ name)
    (existing : Option Field) (value : Option Json.Value) (b : Notebook) :
    ((observe reserved name existing value b).2.page k).discovery = (b.page k).discovery := by
  have hflat := discovery_observeFlat name name existing value b k
  rcases observe_cases reserved name existing value b with h | ⟨members, -, -, h⟩
  · rw [h, hflat]
  · rw [h, discovery_observeComponent, if_neg hk, hflat]

/-- Observing a field over records says nothing of the components of another. -/
theorem discovery_observeRecords_of_ne (reserved : Reserved) {name k : String} (hk : k ≠ name)
    (records : List Record) (b : Notebook) :
    ((observeRecords reserved name records b).2.page k).discovery = (b.page k).discovery := by
  induction records using List.reverseRecOn with
  | nil => rfl
  | append_singleton records record ih =>
    rw [observeRecords_concat]
    dsimp only
    rw [discovery_observe_of_ne reserved hk, ih]

end Field

/-! ## One more component -/

/-- A page and the descriptors of sub-fields say the same of components: which keys they have, how many
they are, and what they hold under each key. -/
structure Tracks (reserved : Reserved) (components : List Record) (page : Page)
    (subFields : List Field) : Prop where
  page : page.discovery = (knownKeys reserved components, components.length)
  names : subFields.map Field.name = knownKeys reserved components
  describes : ∀ g ∈ subFields, g.Describes components
  flat : ∀ g ∈ subFields, g.subFields = []

/-- Before the first component there are no sub-fields. -/
theorem Tracks.nil (reserved : Reserved) {page : Page} (h : page.discovery = ([], 0)) :
    Tracks reserved [] page [] where
  page := h
  names := rfl
  describes := fun _ hg => absurd hg List.not_mem_nil
  flat := fun _ hg => absurd hg List.not_mem_nil

/-- What a page says of components is all that matters. -/
theorem Tracks.congr {reserved : Reserved} {components : List Record} {page page' : Page}
    {subFields : List Field} (h : Tracks reserved components page subFields)
    (hpage : page'.discovery = page.discovery) : Tracks reserved components page' subFields where
  page := hpage.trans h.page
  names := h.names
  describes := h.describes
  flat := h.flat

namespace Field

section OneComponent

variable {components : List Record} (members : Record) {subFields : List Field} {key : String}

/-- **One key.**  Observing a sub-field puts a descriptor under its key.  It describes one component
more than the earlier descriptor does, or than none of which holds anything under the key. -/
theorem exists_observeKey (heading : String) (hdescribes : ∀ g ∈ subFields, g.name = key →
      g.Describes components ∧ g.subFields = [])
    (hnew : key ∉ subFields.map Field.name → ∀ c ∈ components, c.value? key = none) (b : Notebook) :
    ∃ g, (observeKey heading (decide (0 < components.length)) members (subFields, b) key).1 =
        Keyed.upsert Field.name g subFields ∧
      g.name = key ∧ g.Describes (components ++ [members]) ∧ g.subFields = [] := by
  unfold observeKey
  dsimp only
  cases hexisting : Keyed.find? Field.name key subFields with
  | none =>
    obtain ⟨unique, hflat⟩ :=
      observeFlat_none (subHeading heading key) key (Keyed.get? key members) b
    have hnone : key ∉ subFields.map Field.name := Keyed.find?_eq_none_iff.mp hexisting
    refine ⟨_, rfl, ?_⟩
    rw [hflat]
    -- A key discovered late was missing before, and the descriptor says so.
    cases components with
    | nil =>
      refine ⟨rfl, describes_of_first (hnew hnone) rfl ?_, rfl⟩
      simp [Record.value?]
    | cons c components =>
      refine ⟨by simp, describes_of_first ?_ ?_ ?_, by simp⟩
      · simpa using hnew hnone
      · simp [Record.value?]
      · simp
  | some g =>
    obtain ⟨hmem, hname⟩ := Keyed.mem_and_name_of_find? hexisting
    obtain ⟨hg, hsub⟩ := hdescribes g hmem hname
    obtain ⟨unique, hflat⟩ :=
      observeFlat_some (subHeading heading key) key g (Keyed.get? key members) b
    refine ⟨_, rfl, ?_⟩
    rw [hflat]
    subst hname
    exact ⟨rfl, hg.concat rfl rfl rfl, by simp [hsub]⟩

/-- **Some keys.**  Observing sub-fields puts a descriptor under each of the keys, which describes one
component more, and leaves those of other keys. -/
theorem foldl_observeKey (heading : String) (hnodup : (subFields.map Field.name).Nodup)
    (hdescribes : ∀ g ∈ subFields, g.Describes components ∧ g.subFields = []) {keys : List String}
    (hkeys : keys.Nodup)
    (hnew : ∀ key ∈ keys, key ∉ subFields.map Field.name → ∀ c ∈ components, c.value? key = none)
    (b : Notebook) :
    let after :=
      (keys.foldl (observeKey heading (decide (0 < components.length)) members) (subFields, b)).1
    after.map Field.name = Keyed.extend (subFields.map Field.name) keys ∧
      ∀ g ∈ after, g.name ∈ keys ∧ g.Describes (components ++ [members]) ∧ g.subFields = [] ∨
        g.name ∉ keys ∧ g ∈ subFields := by
  induction keys using List.reverseRecOn with
  | nil => exact ⟨rfl, fun g hg => Or.inr ⟨List.not_mem_nil, hg⟩⟩
  | append_singleton keys key ih =>
    rw [← List.concat_eq_append, List.nodup_concat] at hkeys
    obtain ⟨hkey, hkeys⟩ := hkeys
    obtain ⟨hnames, hall⟩ := ih hkeys fun k hk => hnew k (List.mem_append_left _ hk)
    dsimp only
    rw [List.foldl_concat]
    set state :=
      keys.foldl (observeKey heading (decide (0 < components.length)) members) (subFields, b)
    -- A descriptor under this key, if there is one, is still that of the earlier components.
    have hold : ∀ g ∈ state.1, g.name = key → g.Describes components ∧ g.subFields = [] := by
      rintro g hg rfl
      rcases hall g hg with ⟨hmem, -⟩ | ⟨-, hg⟩
      · exact absurd hmem hkey
      · exact hdescribes g hg
    have hnone : key ∉ state.1.map Field.name → ∀ c ∈ components, c.value? key = none := by
      intro hnone
      rw [hnames, Keyed.mem_extend, not_or] at hnone
      exact hnew key (List.mem_append_right _ List.mem_cons_self) hnone.1
    obtain ⟨g, hput, hname, hg⟩ := exists_observeKey members heading hold hnone state.2
    rw [hput]
    constructor
    · rw [Keyed.map_upsert, hname, hnames, Keyed.extend_append]
      rfl
    · intro g' hg'
      have hnodup' : (state.1.map Field.name).Nodup := hnames ▸ Keyed.nodup_extend hnodup keys
      rcases Keyed.eq_or_mem_of_mem_upsert hnodup' hg' with rfl | ⟨hg', hne⟩
      · exact Or.inl ⟨by simp [hname], hg⟩
      · rw [hname] at hne
        rcases hall g' hg' with ⟨hmem, h⟩ | ⟨hmem, h⟩
        · exact Or.inl ⟨List.mem_append_left _ hmem, h⟩
        · exact Or.inr ⟨by simp [hmem, hne], h⟩

/-- **One more component.**  Page and descriptors go on saying the same. -/
theorem tracks_observeComponent {reserved : Reserved} {name : String} {f : Field} {b : Notebook}
    (h : Tracks reserved components (b.page name) f.subFields) :
    Tracks reserved (components ++ [members])
      ((observeComponent reserved name members f b).2.page name)
      (observeComponent reserved name members f b).1.subFields := by
  have hpage := h.page
  rw [Page.discovery, Prod.mk.injEq] at hpage
  obtain ⟨hkeys, hcount⟩ := hpage
  let names := (members.map Prod.fst).filter fun key => !reserved.hasSubField key
  let keys := knownKeys reserved (components ++ [members])
  have hextend : Keyed.extend (b.page name).keys names = keys := by
    rw [hkeys, ← knownKeys_concat]
  have hsub : (observeComponent reserved name members f b).1.subFields =
      (keys.foldl (observeKey name (decide (0 < components.length)) members)
        (f.subFields, b.write name ((b.page name).noteComponent names))).1 := by
    rw [← hcount, ← hextend]
    rfl
  have hnew : ∀ key ∈ keys, key ∉ f.subFields.map Field.name →
      ∀ c ∈ components, c.value? key = none := by
    intro key hkey hnone c hc
    rw [h.names] at hnone
    exact value?_eq_none_of_notMem (hasSubField_of_mem_knownKeys hkey) hnone hc
  obtain ⟨hnames, hall⟩ := foldl_observeKey members name
    (h.names ▸ nodup_knownKeys) (fun g hg => ⟨h.describes g hg, h.flat g hg⟩) nodup_knownKeys hnew
    (b.write name ((b.page name).noteComponent names))
  rw [← hsub] at hnames hall
  -- The fold went over the keys known before and the new ones, so it touched every descriptor.
  rw [h.names, knownKeys_concat, Keyed.extend_extend, ← knownKeys_concat] at hnames
  have hevery : ∀ g ∈ (observeComponent reserved name members f b).1.subFields,
      g.Describes (components ++ [members]) ∧ g.subFields = [] := by
    intro g hg
    rcases hall g hg with ⟨-, h⟩ | ⟨hnone, -⟩
    · exact h
    · refine absurd ?_ hnone
      rw [← hnames]
      exact List.mem_map_of_mem hg
  refine ⟨?_, hnames, fun g hg => (hevery g hg).1, fun g hg => (hevery g hg).2⟩
  rw [discovery_observeComponent, if_pos rfl, Page.discovery, Page.noteComponent]
  simp only [Prod.mk.injEq]
  exact ⟨hextend, by rw [hcount, List.length_append, List.length_singleton]⟩

end OneComponent

/-! ## One more value -/

/-- A field that holds components, or nothing so far, has page and descriptors that say the same of the
components that records hold in it; any other field has no sub-fields. -/
structure Discovers (reserved : Reserved) (records : List Record) (page : Page) (f : Field) :
    Prop where
  flat : f.type ≠ .component → f.subFields = []
  tracks : f.type = .component ∨ f.type = .nullish →
    Tracks reserved (componentsIn f.name records) page f.subFields

section OneValue

variable {reserved : Reserved} {records : List Record} {f : Field}

/-- In a field of components, the plain objects are the components. -/
theorem classifyGiven_eq_component_iff {previous : Option FieldType} {members : Json.Members}
    (h : previous = some .component ∨ classifyGiven previous (.object members) = .component) :
    classifyGiven previous (.object members) = .component ↔
      plainMembers? (.object members) = some members := by
  rw [classifyGiven] at h ⊢
  rw [plainMembers?]
  by_cases hmedia : isMedia (.object members)
  · simp [hmedia]
  · rw [if_neg hmedia] at h ⊢
    rw [if_neg hmedia]
    have hcomponent : previous = some .component ∨ isComponent (.object members) = true := by
      rcases h with h | h
      · exact Or.inl h
      · by_contra hneither
        rw [if_neg hneither] at h
        cases h
    simp [hcomponent]

/-- A value leaves the type of a field that has one, unless it makes the field one of text with
markup. -/
theorem typeAfter_eq_or (h : f.type ≠ .nullish) (value : Option Json.Value) :
    f.typeAfter value = f.type ∨ f.typeAfter value = .richText := by
  rw [typeAfter]
  cases value.bind Json.Value.nonNull? with
  | none => exact Or.inl rfl
  | some v =>
    rw [Option.elim_some, mergeType_of_ne_nullish h]
    split
    · exact Or.inr rfl
    · exact Or.inl rfl

/-- A field without a type takes that of the value. -/
theorem typeAfter_of_nullish (h : f.type = .nullish) (value : Option Json.Value) :
    f.typeAfter value = (value.bind Json.Value.nonNull?).elim .nullish classify := by
  rw [typeAfter, h]
  cases value.bind Json.Value.nonNull? with
  | none => rfl
  | some v =>
    have hne : FieldType.nullish ≠ .component := by decide
    rw [Option.elim_some, Option.elim_some, classifyGiven_of_ne hne, mergeType]
    split
    · rename_i heq
      exact heq
    · rename_i hne
      by_cases hrich : classify v = .richText
      · simp [hrich]
      · simp [hrich]

/-- A field is without a type only as long as there is no value. -/
theorem value?_eq_none_of_typeAfter {record : Record}
    (h : f.typeAfter (Keyed.get? f.name record) = .nullish) : record.value? f.name = none := by
  by_cases htype : f.type = .nullish
  · rw [typeAfter_of_nullish htype, ← Record.value?] at h
    cases hvalue : record.value? f.name with
    | none => rfl
    | some v =>
      rw [hvalue] at h
      exact absurd h (classify_ne_nullish (Record.value?_eq_some_iff.mp hvalue).2)
  · rcases typeAfter_eq_or htype (Keyed.get? f.name record) with hsame | hrich
    · exact absurd (hsame ▸ h) htype
    · rw [hrich] at h
      cases h

/-- A value that makes a field one of components is a component. -/
theorem classify_eq_component_of_typeAfter {v : Json.Value} (htype : f.type ≠ .component)
    (h : f.typeAfter (some v) = .component) : classify v = .component := by
  by_cases hnullish : f.type = .nullish
  · rw [typeAfter_of_nullish hnullish] at h
    cases v with
    | null => cases h
    | bool b => exact h
    | number n => exact h
    | string s => exact h
    | array items => exact h
    | object members => exact h
  · rcases typeAfter_eq_or hnullish (some v) with hsame | hrich
    · exact absurd (hsame ▸ h) htype
    · rw [hrich] at h
      cases h

/-- **Looking into a value.**  In a field of components, an observation looks into the plain objects, and
into nothing else. -/
theorem observe_eq (reserved : Reserved) (name : String) (existing : Option Field)
    (value : Option Json.Value) (b : Notebook)
    (h : ∀ members, value = some (.object members) →
      (observeFlat name name existing value b).1.type = .component →
      existing.map Field.type = some .component ∨
        classifyGiven (existing.map Field.type) (.object members) = .component) :
    observe reserved name existing value b =
      match value.bind plainMembers? with
      | some members =>
        if (observeFlat name name existing value b).1.type = .component then
          observeComponent reserved name members (observeFlat name name existing value b).1
            (observeFlat name name existing value b).2
        else observeFlat name name existing value b
      | none => observeFlat name name existing value b := by
  unfold observe
  cases value with
  | none => rfl
  | some v =>
    cases v with
    | object members =>
      by_cases htype :
          (observeFlat name name existing (some (.object members)) b).1.type = .component
      · have hiff := classifyGiven_eq_component_iff (h members rfl htype)
        by_cases hplain : plainMembers? (.object members) = some members
        · simp [htype, hplain, hiff.mpr hplain]
        · have hnone : plainMembers? (.object members) = none := by
            rw [plainMembers?] at hplain ⊢
            split
            · rfl
            · rename_i hmedia
              exact absurd (if_neg hmedia) hplain
          have hother : ¬ classifyGiven (existing.map Field.type) (.object members) = .component :=
            fun heq => hplain (hiff.mp heq)
          simp [htype, hnone, hother]
      · simp only [htype, false_and, if_false, Option.bind_some]
        split <;> rfl
    | null => rfl
    | bool b => rfl
    | number n => rfl
    | string s => rfl
    | array items => rfl

/-- A null value holds nothing, so looking at it or not is the same. -/
theorem bind_plainMembers?_value? (name : String) (record : Record) :
    (record.value? name).bind plainMembers? = (Keyed.get? name record).bind plainMembers? := by
  rw [Record.value?]
  cases Keyed.get? name record with
  | none => rfl
  | some v => cases v <;> rfl

/-- A field that has no type after a look had no value to look at. -/
theorem value?_eq_none_of_observeFlat {name : String} {existing : Option Field} {record : Record}
    {b : Notebook} (hexisting : ∀ f ∈ existing, f.name = name)
    (h : (observeFlat name name existing (Keyed.get? name record) b).1.type = .nullish) :
    record.value? name = none := by
  cases existing with
  | none =>
    obtain ⟨unique, hlooked⟩ := observeFlat_none name name (Keyed.get? name record) b
    rw [hlooked] at h
    dsimp only at h
    rw [← Record.value?] at h
    cases hvalue : record.value? name with
    | none => rfl
    | some v =>
      rw [hvalue] at h
      exact absurd h (classify_ne_nullish (Record.value?_eq_some_iff.mp hvalue).2)
  | some f =>
    obtain rfl := hexisting f rfl
    obtain ⟨unique, hlooked⟩ := observeFlat_some f.name f.name f (Keyed.get? f.name record) b
    rw [hlooked] at h
    exact value?_eq_none_of_typeAfter h

/-- A field that holds components, or nothing, after a look did so before, and keeps its sub-fields. -/
theorem subFields_observeFlat {heading name : String} {value : Option Json.Value} {b : Notebook}
    (h : (observeFlat heading name (some f) value b).1.type = .component ∨
      (observeFlat heading name (some f) value b).1.type = .nullish) :
    (f.type = .component ∨ f.type = .nullish) ∧
      (observeFlat heading name (some f) value b).1.subFields = f.subFields := by
  obtain ⟨unique, hlooked⟩ := observeFlat_some heading name f value b
  rw [hlooked] at h ⊢
  dsimp only at h ⊢
  by_cases hnullish : f.type = .nullish
  · refine ⟨Or.inr hnullish, if_pos ?_⟩
    rw [hnullish]
    exact h.symm
  · rcases typeAfter_eq_or hnullish value with hsame | hrich
    · exact ⟨hsame ▸ h, if_pos (Or.inl hsame)⟩
    · rw [hrich] at h
      rcases h with h | h <;> cases h

/-- An object looked at in a field of components was one before, or makes the field one of them. -/
theorem component_of_observeFlat {name : String} {existing : Option Field} {members : Json.Members}
    {b : Notebook}
    (h : (observeFlat name name existing (some (.object members)) b).1.type = .component) :
    existing.map Field.type = some .component ∨
      classifyGiven (existing.map Field.type) (.object members) = .component := by
  cases existing with
  | none =>
    obtain ⟨unique, hlooked⟩ := observeFlat_none name name (some (.object members)) b
    rw [hlooked] at h
    exact Or.inr h
  | some f =>
    obtain ⟨unique, hlooked⟩ := observeFlat_some name name f (some (.object members)) b
    rw [hlooked] at h
    by_cases htype : f.type = .component
    · exact Or.inl (congrArg some htype)
    · refine Or.inr ?_
      rw [Option.map_some, classifyGiven_of_ne htype]
      exact classify_eq_component_of_typeAfter htype h

/-- **One more record.**  As long as a field may be one of components, an observation looks into what the
record adds to them, if it adds anything. -/
theorem observe_componentsIn (reserved : Reserved) {name : String} {existing : Option Field}
    (hexisting : ∀ f ∈ existing, f.name = name) (records : List Record) (record : Record)
    (b : Notebook) :
    let looked := observeFlat name name existing (Keyed.get? name record) b
    looked.1.type = .component ∨ looked.1.type = .nullish →
      observe reserved name existing (Keyed.get? name record) b = looked ∧
          componentsIn name (records ++ [record]) = componentsIn name records ∨
        ∃ members, looked.1.type = .component ∧
          observe reserved name existing (Keyed.get? name record) b =
            observeComponent reserved name members looked.1 looked.2 ∧
          componentsIn name (records ++ [record]) = componentsIn name records ++ [members] := by
  intro looked htype
  have hobserve := observe_eq reserved name existing (Keyed.get? name record) b
    fun members hvalue hcomponent => component_of_observeFlat (hvalue ▸ hcomponent)
  have hmembers := componentsIn_concat name records record
  rw [bind_plainMembers?_value?] at hmembers
  cases hplain : (Keyed.get? name record).bind plainMembers? with
  | none =>
    rw [hplain] at hobserve hmembers
    exact Or.inl ⟨hobserve, by rw [hmembers, Option.toList_none, List.append_nil]⟩
  | some members =>
    rw [hplain] at hobserve hmembers
    have hcomponent : looked.1.type = .component := by
      refine htype.resolve_right fun hnullish => ?_
      -- A value that is no null gives the field a type.
      have hnone := value?_eq_none_of_observeFlat hexisting hnullish
      rw [← bind_plainMembers?_value?, hnone] at hplain
      cases hplain
    exact Or.inr ⟨members, hcomponent, hobserve.trans (if_pos hcomponent), hmembers⟩

/-- **The components of one value.**  If the look at a value from outside leaves page and descriptors
that say the same of the earlier records, the observation leaves such that say the same of all. -/
theorem discovers_observe {name : String} {existing : Option Field} {record : Record}
    {b : Notebook} (hexisting : ∀ f ∈ existing, f.name = name)
    (hflat : (observeFlat name name existing (Keyed.get? name record) b).1.Discovers reserved records
      (b.page name)) :
    (observe reserved name existing (Keyed.get? name record) b).1.Discovers reserved
      (records ++ [record])
      ((observe reserved name existing (Keyed.get? name record) b).2.page name) := by
  have hname := name_observeFlat name hexisting (Keyed.get? name record) b
  have hpage := discovery_observeFlat name name existing (Keyed.get? name record) b name
  have hadds := observe_componentsIn reserved hexisting records record b
  have hcases := observe_cases reserved name existing (Keyed.get? name record) b
  generalize observeFlat name name existing (Keyed.get? name record) b = looked at *
  by_cases htype : looked.1.type = .component ∨ looked.1.type = .nullish
  · have htracks := (hflat.tracks htype).congr hpage
    rw [hname] at htracks
    rcases hadds htype with ⟨h, hmembers⟩ | ⟨members, hcomponent, h, hmembers⟩
    · rw [h]
      refine ⟨hflat.flat, fun _ => ?_⟩
      rw [hname, hmembers]
      exact htracks
    · rw [h]
      refine ⟨fun hne => absurd hcomponent hne, fun _ => ?_⟩
      show Tracks reserved (componentsIn looked.1.name (records ++ [record])) _ _
      rw [hname, hmembers]
      exact tracks_observeComponent _ htracks
  · rcases hcases with h | ⟨members, -, hcomponent, -⟩
    · rw [h]
      exact ⟨hflat.flat, fun h => absurd h htype⟩
    · exact absurd (Or.inl hcomponent) htype

/-- **First record.**  The first observation of a field discovers what the record holds in it. -/
theorem discovers_observe_none (reserved : Reserved) (name : String) (record : Record)
    {b : Notebook} (hb : (b.page name).discovery = ([], 0)) :
    (observe reserved name none (Keyed.get? name record) b).1.Discovers reserved [record]
      ((observe reserved name none (Keyed.get? name record) b).2.page name) := by
  obtain ⟨unique, hlooked⟩ := observeFlat_none name name (Keyed.get? name record) b
  rw [← List.nil_append [record]]
  refine discovers_observe nofun ?_
  rw [hlooked]
  exact ⟨fun _ => rfl, fun _ => Tracks.nil reserved hb⟩

/-- **Next record.**  A further observation of a field discovers what the record holds in it. -/
theorem Discovers.observe {b : Notebook} (hf : f.Discovers reserved records (b.page f.name))
    (record : Record) :
    (Field.observe reserved f.name (some f) (Keyed.get? f.name record) b).1.Discovers reserved
      (records ++ [record])
      ((Field.observe reserved f.name (some f) (Keyed.get? f.name record) b).2.page f.name) := by
  refine discovers_observe (by simp) ⟨fun hother => ?_, fun htype => ?_⟩
  · obtain ⟨unique, hlooked⟩ := observeFlat_some f.name f.name f (Keyed.get? f.name record) b
    rw [hlooked] at hother ⊢
    dsimp only at hother ⊢
    split
    · rename_i hkept
      exact hf.flat (hkept.resolve_right hother ▸ hother)
    · rfl
  · obtain ⟨hwas, hkept⟩ := subFields_observeFlat htype
    rw [hkept, name_observeFlat f.name (by simp)]
    exact hf.tracks hwas

end OneValue

/-- **All records.**  Records leave a descriptor that discovers what they hold in the field. -/
theorem discovers_observeRecords {reserved : Reserved} {name : String} {records : List Record}
    {b : Notebook} (hb : (b.page name).discovery = ([], 0)) {f : Field}
    (hf : (observeRecords reserved name records b).1 = some f) :
    f.Discovers reserved records ((observeRecords reserved name records b).2.page name) := by
  induction records using List.reverseRecOn generalizing f with
  | nil => cases hf
  | append_singleton records record ih =>
    rw [observeRecords_concat] at hf ⊢
    dsimp only at hf ⊢
    rw [← Option.some.inj hf]
    by_cases hfirst : records = []
    · subst hfirst
      exact discovers_observe_none reserved name record hb
    · obtain ⟨g, hg, hname, -⟩ := exists_observeRecords reserved name hfirst b
      have hdiscovers := ih hg
      subst hname
      rw [hg]
      exact hdiscovers.observe record

end Field

/-! ## All fields -/

/-- A descriptor says of records what the components in its field are made of: a sub-field for each of
their keys that is not reserved, in order of first appearance, which describes them and has no sub-fields
of its own.  A field of another type has no sub-fields. -/
structure Field.DescribesComponents (reserved : Reserved) (f : Field) (records : List Record) :
    Prop where
  of_ne : f.type ≠ .component → f.subFields = []
  names : f.type = .component →
    FirstAppearances (f.subFields.map Field.name)
      (componentKeys reserved (componentsIn f.name records))
  subFields : ∀ g ∈ f.subFields, g.Describes (componentsIn f.name records) ∧ g.subFields = []

/-- What was discovered describes the components. -/
theorem Field.Discovers.describesComponents {reserved : Reserved} {records : List Record}
    {page : Page} {f : Field} (h : f.Discovers reserved records page) :
    f.DescribesComponents reserved records := by
  refine ⟨h.flat, fun htype => ?_, fun g hg => ?_⟩
  · rw [(h.tracks (Or.inl htype)).names]
    exact Keyed.firstAppearances_extend _
  · by_cases htype : f.type = .component
    · have htracks := h.tracks (Or.inl htype)
      exact ⟨htracks.describes g hg, htracks.flat g hg⟩
    · rw [h.flat htype] at hg
      cases hg

namespace EntitySchema

/-- The fields of distinct names describe the components in them, if nothing was known of their
components. -/
theorem describesComponents_of_mem_fieldsOf {reserved : Reserved} {records : List Record}
    {names : List String} (hnames : names.Nodup) {b : Notebook}
    (hb : ∀ n ∈ names, (b.page n).discovery = ([], 0)) {f : Field}
    (hf : f ∈ fieldsOf reserved records names b) : f.DescribesComponents reserved records := by
  induction names generalizing b with
  | nil => cases hf
  | cons name names ih =>
    obtain ⟨hname, hnames⟩ := List.nodup_cons.mp hnames
    rw [fieldsOf, List.mem_append, Option.mem_toList] at hf
    rcases hf with hf | hf
    · exact (Field.discovers_observeRecords (hb name List.mem_cons_self) hf).describesComponents
    · refine ih hnames (fun n hn => ?_) hf
      have hne : n ≠ name := fun heq => hname (heq ▸ hn)
      rw [Field.discovery_observeRecords_of_ne reserved hne]
      exact hb n (List.mem_cons_of_mem _ hn)

/-- **One entity.**  The inferred fields of an entity describe the components in them. -/
theorem describesComponents_infer (settings : InferenceSettings) (name : String)
    (records : List Record) {f : Field} (hf : f ∈ (infer settings name records).fields) :
    f.DescribesComponents settings.reserved (sample settings.sampleSize records) :=
  describesComponents_of_mem_fieldsOf (firstAppearances_keysOf _).nodup (fun _ _ => rfl) hf

end EntitySchema

/-- **Components.**  An inferred schema has one entity for each of the dataset, in the same order, and
each of its fields describes what the first records of the entity, or all of them if the size of the
sample is zero, hold in it: also the components in it, with or without an identifier. -/
theorem Schema.infer_describesComponents (settings : InferenceSettings) {d : Dataset}
    (h : d.DistinctNames) :
    List.Forall₂
      (fun entity e =>
        let records :=
          if settings.sampleSize = 0 then entity.2 else entity.2.take settings.sampleSize
        e.name = entity.1 ∧ e.Describes records ∧
          ∀ f ∈ e.fields, f.DescribesComponents settings.reserved records)
      d.entities (infer settings d).entities := by
  rw [entities_infer settings h, List.forall₂_map_right_iff, List.forall₂_same]
  intro entity _
  exact ⟨rfl, EntitySchema.describes_infer settings entity.1 entity.2,
    fun f hf => EntitySchema.describesComponents_infer settings entity.1 entity.2 hf⟩

/-- Books with an author: missing at first, then a component with an identifier, then one without, and
at last a text. -/
def books : Dataset :=
  ⟨[("books", [
    [("author", .null)],
    [("author", .object [("id", .number (.integer 1)), ("name", .string "Ann"), ("bio", .null)])],
    [("author", .object [("links", .object [("id", .string "l")]), ("name", .string "<b>Bo</b>")])],
    [("author", .string "Cy")]])]⟩

/-- The author of a book: a name, which both components have and one of them with markup, a biography,
which neither has, and links, which only the second one has and which have no sub-fields. -/
theorem Schema.infer_describesComponents_books :
    books.DistinctNames ∧
      (infer .standard books).entities.flatMap EntitySchema.fields =
        [⟨"author", .component, false, false,
          [⟨"name", .richText, true, true, []⟩, ⟨"bio", .nullish, false, false, []⟩,
            ⟨"links", .component, false, false, []⟩]⟩] ∧
      List.Forall₂
        (fun entity e => e.name = entity.1 ∧ e.Describes entity.2 ∧
          ∀ f ∈ e.fields, f.DescribesComponents .standard entity.2)
        books.entities (infer .standard books).entities :=
  ⟨by decide, by decide +kernel, infer_describesComponents .standard (by decide)⟩

end ContentModel

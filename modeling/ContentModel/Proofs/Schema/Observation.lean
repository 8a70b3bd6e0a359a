import Mathlib.Data.List.Basic
import Mathlib.Data.List.Induction
import ContentModel.Schema.Inference

/-
# What an observation reads, writes and keeps

An observation of a field reads and writes pages of the notebook: the page of the field, and the pages
of its sub-fields.  No other page matters to it, and it leaves all others as they were.

Main statements: `Field.within_observe` (which pages an observation reads and writes), `Field.observe_none`
and `Field.observe_some` (what it does to the name, the type and the required flag of a descriptor,
whatever the notebook says).
-/

namespace ContentModel

open Recognition

/-! ## Operations within a set of pages -/

/-- Two notebooks have the same pages under the headings of a set. -/
def Notebook.AgreeOn (S : String → Prop) (b b' : Notebook) : Prop :=
  ∀ h, S h → b.page h = b'.page h

/-- An operation on notebooks reads and writes only pages under the headings of a set. -/
structure Within {α : Type} (S : String → Prop) (op : Notebook → α × Notebook) : Prop where
  reads : ∀ b b', b.AgreeOn S b' → (op b).1 = (op b').1
  writes : ∀ b b', b.AgreeOn S b' → (op b).2.AgreeOn S (op b').2
  frame : ∀ b h, ¬ S h → (op b).2.page h = b.page h

namespace Within

variable {α β : Type} {S : String → Prop}

/-- Giving a result touches no page. -/
theorem pure (a : α) : Within S fun b => (a, b) where
  reads := fun _ _ _ => rfl
  writes := fun _ _ h => h
  frame := fun _ _ _ => rfl

/-- Going on after reading a page. -/
theorem read {heading : String} (hS : S heading) (op : Page → Notebook → α × Notebook)
    (h : ∀ p, Within S (op p)) : Within S fun b => op (b.page heading) b where
  reads := by
    intro b b' hb
    simp only [hb heading hS]
    exact (h _).reads b b' hb
  writes := by
    intro b b' hb
    simp only [hb heading hS]
    exact (h _).writes b b' hb
  frame := fun b => (h _).frame b

/-- Going on after writing a page. -/
theorem write {heading : String} (hS : S heading) (p : Page) {op : Notebook → α × Notebook}
    (h : Within S op) : Within S fun b => op (b.write heading p) := by
  -- What is written is the same on both sides, so the notebooks agree on this page too.
  have hagree : ∀ b b' : Notebook, b.AgreeOn S b' →
      (b.write heading p).AgreeOn S (b'.write heading p) := by
    intro b b' hb k hk
    by_cases hkh : k = heading
    · rw [hkh, Notebook.page_write_self, Notebook.page_write_self]
    · rw [Notebook.page_write_of_ne hkh, Notebook.page_write_of_ne hkh]
      exact hb k hk
  constructor
  · intro b b' hb
    exact h.reads _ _ (hagree b b' hb)
  · intro b b' hb
    exact h.writes _ _ (hagree b b' hb)
  · intro b k hk
    have hkh : k ≠ heading := fun hkh => hk (hkh ▸ hS)
    rw [h.frame _ k hk, Notebook.page_write_of_ne hkh]

/-- One operation after another. -/
theorem bind {op : Notebook → α × Notebook} (h : Within S op) {next : α → Notebook → β × Notebook}
    (hnext : ∀ a, Within S (next a)) : Within S fun b => next (op b).1 (op b).2 where
  reads := by
    intro b b' hb
    simp only [h.reads b b' hb]
    exact (hnext _).reads _ _ (h.writes b b' hb)
  writes := by
    intro b b' hb
    simp only [h.reads b b' hb]
    exact (hnext _).writes _ _ (h.writes b b' hb)
  frame := by
    intro b k hk
    rw [(hnext _).frame _ k hk, h.frame b k hk]

/-- What stays within a set stays within a larger one. -/
theorem mono {T : String → Prop} {op : Notebook → α × Notebook} (h : Within S op)
    (hST : ∀ k, S k → T k) : Within T op := by
  constructor
  · intro b b' hb
    exact h.reads b b' fun k hk => hb k (hST k hk)
  · intro b b' hb k hk
    by_cases hS : S k
    · exact h.writes b b' (fun k hk => hb k (hST k hk)) k hS
    · rw [h.frame b k hS, h.frame b' k hS]
      exact hb k hk
  · intro b k hk
    exact h.frame b k fun hS => hk (hST k hS)

/-- An operation for each element of a list, one after the other. -/
theorem foldl {γ : Type} {step : β × Notebook → γ → β × Notebook}
    (h : ∀ a x, Within S fun b => step (a, b) x) (xs : List γ) (a : β) :
    Within S fun b => xs.foldl step (a, b) := by
  induction xs generalizing a with
  | nil => exact pure a
  | cons x xs ih => exact (h a x).bind ih

end Within

/-! ## The pages of a field -/

namespace Field

/-- The headings of the pages of a field: its own and those of its sub-fields. -/
def Headings (name heading : String) : Prop :=
  heading = name ∨ ∃ key, heading = subHeading name key

/-- Reading a text touches one page. -/
theorem within_observeText (heading : String) (v : Json.Value) (f : Field) :
    Within (· = heading) (observeText heading v f) := by
  cases v with
  | string s =>
    refine Within.read ?_ (fun p b =>
      ({ f with
          unique := if f.type.isTextual then mergeUnique f.unique (decide (s ∈ p.texts))
            else f.unique },
        b.write heading (p.noteText s))) fun p => ?_
    · rfl
    · exact Within.write (S := (· = heading)) rfl _ (Within.pure _)
  | null => exact Within.pure f
  | bool b => exact Within.pure f
  | number n => exact Within.pure f
  | array items => exact Within.pure f
  | object members => exact Within.pure f

/-- Observing a value without looking into it touches one page. -/
theorem within_observeFlat (heading name : String) (existing : Option Field)
    (value : Option Json.Value) :
    Within (· = heading) (observeFlat heading name existing value) := by
  unfold observeFlat
  cases existing with
  | none =>
    cases value.bind Json.Value.nonNull? with
    | none => exact Within.pure _
    | some v => exact within_observeText heading v _
  | some f =>
    cases value.bind Json.Value.nonNull? with
    | none => exact Within.pure _
    | some v =>
      refine Within.read ?_ (fun p =>
        observeText heading v (f.retype p.repeated (classifyGiven (some f.type) v))) fun p => ?_
      · rfl
      · exact within_observeText heading v _

/-- Observing a sub-field touches its page. -/
theorem within_observeKey (heading : String) (late : Bool) (members : Json.Members)
    (subFields : List Field) (key : String) :
    Within (· = subHeading heading key)
      fun b => observeKey heading late members (subFields, b) key := by
  let existing := Keyed.find? Field.name key subFields
  exact (within_observeFlat (subHeading heading key) key existing (Keyed.get? key members)).bind
    fun f => Within.pure (Keyed.upsert Field.name
      (if existing.isNone && late then { f with required := false } else f) subFields)

/-- Observing the sub-fields of a component touches the pages of the field. -/
theorem within_observeComponent (reserved : Reserved) (name : String) (members : Json.Members)
    (f : Field) : Within (Headings name) (observeComponent reserved name members f) := by
  have hsub : ∀ late subFields key, Within (Headings name)
      fun b => observeKey name late members (subFields, b) key := by
    intro late subFields key
    refine (within_observeKey name late members subFields key).mono ?_
    rintro k rfl
    exact Or.inr ⟨key, rfl⟩
  -- The page of the field says which keys to go over; the rest happens on the pages of sub-fields.
  let keys := (members.map Prod.fst).filter fun n => !reserved.hasSubField n
  let fold (before : Page) (b : Notebook) : List Field × Notebook :=
    (before.noteComponent keys).keys.foldl
      (observeKey name (decide (0 < before.components)) members)
      (f.subFields, b.write name (before.noteComponent keys))
  have hfold : ∀ before, Within (Headings name) (fold before) := fun before =>
    Within.write (Or.inl rfl) _ (Within.foldl (hsub _) _ _)
  exact (Within.read (Or.inl rfl) fold hfold).bind
    fun subFields => Within.pure { f with subFields }

/-- **Pages.**  An observation reads and writes only the pages of its field. -/
theorem within_observe (reserved : Reserved) (name : String) (existing : Option Field)
    (value : Option Json.Value) : Within (Headings name) (observe reserved name existing value) := by
  have hflat : Within (Headings name) (observeFlat name name existing value) :=
    (within_observeFlat name name existing value).mono fun k hk => Or.inl hk
  have hthen : ∀ (members : Json.Members) (f : Field), Within (Headings name) fun b =>
      if f.type = .component ∧
          classifyGiven (existing.map Field.type) (.object members) = .component then
        observeComponent reserved name members f b
      else (f, b) := by
    intro members f
    split
    · exact within_observeComponent reserved name members f
    · exact Within.pure f
  unfold observe
  rcases value with _ | v
  · exact hflat
  · cases v with
    | object members => exact hflat.bind (hthen members)
    | null => exact hflat
    | bool b => exact hflat
    | number n => exact hflat
    | string s => exact hflat
    | array items => exact hflat

/-! ## The name, the type and the required flag -/

/-- A descriptor is made of its parts. -/
theorem mk_eta (f : Field) : (⟨f.name, f.type, f.required, f.unique, f.subFields⟩ : Field) = f := by
  cases f with
  | mk => rfl

/-- Reading a text notes it, and touches nothing but the unique flag; there is nothing to read in another
value. -/
theorem observeText_cases (heading : String) (v : Json.Value) (f : Field) (b : Notebook) :
    (∃ s unique, v = .string s ∧
        observeText heading v f b =
          ({ f with unique }, b.write heading ((b.page heading).noteText s)) ∧
        unique =
          if f.type.isTextual then mergeUnique f.unique (decide (s ∈ (b.page heading).texts))
          else f.unique) ∨
      (∀ s, v ≠ .string s) ∧ observeText heading v f b = (f, b) := by
  cases v with
  | string s => exact Or.inl ⟨s, _, rfl, rfl, rfl⟩
  | null => exact Or.inr ⟨nofun, rfl⟩
  | bool b => exact Or.inr ⟨nofun, rfl⟩
  | number n => exact Or.inr ⟨nofun, rfl⟩
  | array items => exact Or.inr ⟨nofun, rfl⟩
  | object members => exact Or.inr ⟨nofun, rfl⟩

/-- Reading a text can change the unique flag only. -/
theorem exists_observeText (heading : String) (v : Json.Value) (f : Field) (b : Notebook) :
    ∃ unique, (observeText heading v f b).1 = { f with unique } := by
  rcases observeText_cases heading v f b with ⟨s, unique, -, h, -⟩ | ⟨-, h⟩
  · exact ⟨unique, congrArg Prod.fst h⟩
  · exact ⟨f.unique, (congrArg Prod.fst h).trans f.mk_eta.symm⟩

/-- Looking into a component can change the sub-fields only. -/
theorem exists_observe_eq_observeFlat (reserved : Reserved) (name : String)
    (existing : Option Field) (value : Option Json.Value) (b : Notebook) :
    ∃ subFields, (observe reserved name existing value b).1 =
      { (observeFlat name name existing value b).1 with subFields } := by
  unfold observe
  dsimp only
  split
  · split
    · exact ⟨_, rfl⟩
    · exact ⟨_, (mk_eta _).symm⟩
  · exact ⟨_, (mk_eta _).symm⟩

/-- An observation is a look from outside, and, if the value is an object and the field one of components,
may be a look into the object. -/
theorem observe_cases (reserved : Reserved) (name : String) (existing : Option Field)
    (value : Option Json.Value) (b : Notebook) :
    observe reserved name existing value b = observeFlat name name existing value b ∨
      ∃ members, value = some (.object members) ∧
        (observeFlat name name existing value b).1.type = .component ∧
        observe reserved name existing value b =
          observeComponent reserved name members (observeFlat name name existing value b).1
            (observeFlat name name existing value b).2 := by
  unfold observe
  dsimp only
  split
  · split
    · rename_i members hlook
      exact Or.inr ⟨members, rfl, hlook.1, rfl⟩
    · exact Or.inl rfl
  · exact Or.inl rfl

/-- Looking into an object leaves the type. -/
theorem type_observe (reserved : Reserved) (name : String) (existing : Option Field)
    (value : Option Json.Value) (b : Notebook) :
    (observe reserved name existing value b).1.type =
      (observeFlat name name existing value b).1.type := by
  obtain ⟨subFields, h⟩ := exists_observe_eq_observeFlat reserved name existing value b
  rw [h]

/-- The type of a field after one more value, which may be absent. -/
def typeAfter (f : Field) (value : Option Json.Value) : FieldType :=
  (value.bind Json.Value.nonNull?).elim f.type fun v =>
    mergeType f.type (classifyGiven (some f.type) v)

/-- **First look.**  A field has the type of its first value, is required if there is one, and has no
sub-fields yet. -/
theorem observeFlat_none (heading name : String) (value : Option Json.Value) (b : Notebook) :
    ∃ unique, (observeFlat heading name none value b).1 =
      { name, type := (value.bind Json.Value.nonNull?).elim .nullish classify,
        required := (value.bind Json.Value.nonNull?).isSome, unique, subFields := [] } := by
  unfold observeFlat
  cases value.bind Json.Value.nonNull? with
  | none => exact ⟨_, rfl⟩
  | some v =>
    obtain ⟨unique, htext⟩ := exists_observeText heading v (Field.fresh name (classify v)) b
    exact ⟨unique, by rw [htext]; rfl⟩

/-- **Next look.**  A value merges its type into that of the field; an absent value leaves the type and
makes the field optional.  Sub-fields stay unless the field becomes something else than a component. -/
theorem observeFlat_some (heading name : String) (f : Field) (value : Option Json.Value)
    (b : Notebook) :
    ∃ unique, (observeFlat heading name (some f) value b).1 =
      { name := f.name
        type := f.typeAfter value
        required := f.required && (value.bind Json.Value.nonNull?).isSome
        unique
        subFields :=
          if f.typeAfter value = f.type ∨ f.typeAfter value = .component then f.subFields
          else [] } := by
  unfold observeFlat typeAfter
  cases value.bind Json.Value.nonNull? with
  | none => exact ⟨f.unique, by simp [mergeRequired]⟩
  | some v =>
    let observed := classifyGiven (some f.type) v
    obtain ⟨unique, htext⟩ :=
      exists_observeText heading v (f.retype (b.page heading).repeated observed) b
    refine ⟨unique, ?_⟩
    show (observeText heading v (f.retype (b.page heading).repeated observed) b).1 = _
    rw [htext, retype]
    by_cases hmerged : mergeType f.type observed = f.type
    · simp [observed, hmerged]
    · simp [observed, hmerged]

/-- A look from outside keeps the name of a field. -/
theorem name_observeFlat (heading : String) {name : String} {existing : Option Field}
    (hexisting : ∀ f ∈ existing, f.name = name) (value : Option Json.Value) (b : Notebook) :
    (observeFlat heading name existing value b).1.name = name := by
  cases existing with
  | none =>
    obtain ⟨unique, hlooked⟩ := observeFlat_none heading name value b
    rw [hlooked]
  | some f =>
    obtain ⟨unique, hlooked⟩ := observeFlat_some heading name f value b
    rw [hlooked]
    exact hexisting f rfl

/-- **First observation.**  A field has the type of its first value, and is required if there is one. -/
theorem observe_none (reserved : Reserved) (name : String) (value : Option Json.Value)
    (b : Notebook) :
    ∃ unique subFields, (observe reserved name none value b).1 =
      { name, type := (value.bind Json.Value.nonNull?).elim .nullish classify,
        required := (value.bind Json.Value.nonNull?).isSome, unique, subFields } := by
  obtain ⟨subFields, heq⟩ := exists_observe_eq_observeFlat reserved name none value b
  obtain ⟨unique, hflat⟩ := observeFlat_none name name value b
  exact ⟨unique, subFields, by rw [heq, hflat]⟩

/-- **Next observation.**  A value merges its type into that of the field; an absent value leaves the
type and makes the field optional. -/
theorem observe_some (reserved : Reserved) (name : String) (f : Field) (value : Option Json.Value)
    (b : Notebook) :
    ∃ unique subFields, (observe reserved name (some f) value b).1 =
      { name := f.name
        type := f.typeAfter value
        required := f.required && (value.bind Json.Value.nonNull?).isSome
        unique, subFields } := by
  obtain ⟨subFields, heq⟩ := exists_observe_eq_observeFlat reserved name (some f) value b
  obtain ⟨unique, hflat⟩ := observeFlat_some name name f value b
  exact ⟨unique, subFields, by rw [heq, hflat]⟩

/-- An observation keeps the name of a field. -/
theorem name_observe (reserved : Reserved) {name : String} {existing : Option Field}
    (h : ∀ f ∈ existing, f.name = name) (value : Option Json.Value) (b : Notebook) :
    (observe reserved name existing value b).1.name = name := by
  obtain ⟨subFields, heq⟩ := exists_observe_eq_observeFlat reserved name existing value b
  rw [heq]
  exact name_observeFlat name h value b

/-! ## Observations over records -/

/-- One more record is one more observation. -/
theorem observeRecords_concat (reserved : Reserved) (name : String) (records : List Record)
    (record : Record) (b : Notebook) :
    observeRecords reserved name (records ++ [record]) b =
      let (existing, b) := observeRecords reserved name records b
      let (f, b) := observe reserved name existing (Keyed.get? name record) b
      (some f, b) :=
  List.foldl_concat ..

/-- The descriptor that records leave has the name of the field. -/
theorem name_of_observeRecords {reserved : Reserved} {name : String} {records : List Record}
    {b : Notebook} {f : Field} (hf : (observeRecords reserved name records b).1 = some f) :
    f.name = name := by
  induction records using List.reverseRecOn generalizing f with
  | nil => cases hf
  | append_singleton records record ih =>
    rw [observeRecords_concat] at hf
    cases hf
    exact name_observe reserved (fun f hf => ih hf) _ _

end Field

end ContentModel

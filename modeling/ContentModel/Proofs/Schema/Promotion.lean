import ContentModel.Proofs.Schema.WellFormed

/-
# Descriptors move one way

An observation moves a descriptor one way only: a field that is optional or has repeated a text stays so,
and a type yields to text with markup only, unless there was none.  This holds whatever the notebook says,
so also of descriptors that come from elsewhere.  The sub-fields of a component move by the same rules, one
key after the other, and keep their places.

Main statements: `moves_observeFlat` (a value from outside), `extends_observeKey` and
`extends_foldl_observeKey` (one key, and all keys of a component) and `observe_moves`.
-/

namespace ContentModel

open Recognition

namespace Field

/-! ## Moving one way -/

/-- What a value, which may be absent, can do to a descriptor apart from its sub-fields: the flags can only
be lost, and the type can only be found or yield to text with markup.  Absence touches the required flag
only. -/
structure Moves (value : Option Json.Value) (f g : Field) : Prop where
  name : g.name = f.name
  required : g.required = true → f.required = true
  type : g.type = f.type ∨ g.type = .richText ∨ f.type = .nullish
  unique : f.type.isTextual = true → g.unique = true → f.unique = true
  absent : value.bind Json.Value.nonNull? = none → g = { f with required := g.required }

namespace Moves

variable {value : Option Json.Value} {f g h : Field}

/-- A descriptor may stay. -/
theorem refl (value : Option Json.Value) (f : Field) : f.Moves value f where
  name := rfl
  required := id
  type := Or.inl rfl
  unique := fun _ => id
  absent := fun _ => f.mk_eta.symm

/-- A descriptor may move twice. -/
theorem trans (hfg : f.Moves value g) (hgh : g.Moves value h) : f.Moves value h where
  name := hgh.name.trans hfg.name
  required := hfg.required ∘ hgh.required
  type := by
    -- Text with markup is never left, so that a second move adds nothing to it.
    rcases hfg.type with hg | hg | hf
    · rw [← hg]
      exact hgh.type
    · refine Or.inr (Or.inl ?_)
      rcases hgh.type with hh | hh | hnullish
      · exact hh.trans hg
      · exact hh
      · rw [hg] at hnullish
        cases hnullish
    · exact Or.inr (Or.inr hf)
  unique := by
    intro hf hh
    refine hfg.unique hf (hgh.unique ?_ hh)
    rcases hfg.type with hg | hg | hnullish
    · rwa [hg]
    · rw [hg]
      rfl
    · rw [hnullish] at hf
      cases hf
  absent := by
    intro hnone
    rw [hgh.absent hnone, hfg.absent hnone]

end Moves

/-! ## A value from outside -/

/-- Reading a text never makes a field unique. -/
theorem unique_of_observeText {heading : String} {v : Json.Value} {f : Field} {b : Notebook}
    (h : (observeText heading v f b).1.unique = true) : f.unique = true := by
  rcases observeText_cases heading v f b with ⟨s, unique, -, hread, hunique⟩ | ⟨-, hread⟩
  · rw [hread] at h
    obtain rfl : unique = true := h
    rw [mergeUnique] at hunique
    split at hunique
    · exact (Bool.and_eq_true_iff.mp hunique.symm).1
    · exact hunique.symm
  · rwa [hread] at h

/-- A type that is textual already keeps the unique flag. -/
theorem unique_retype {f : Field} (h : f.type.isTextual = true) (repeated : Bool)
    (observed : FieldType) : (f.retype repeated observed).unique = f.unique := by
  rw [retype]
  split
  · rfl
  · simp [h]

/-- **From outside.**  A value moves a descriptor one way. -/
theorem moves_observeFlat (heading name : String) (f : Field) (value : Option Json.Value)
    (b : Notebook) : f.Moves value (observeFlat heading name (some f) value b).1 := by
  obtain ⟨unique, hflat⟩ := observeFlat_some heading name f value b
  have hunique : f.type.isTextual = true →
      (observeFlat heading name (some f) value b).1.unique = true → f.unique = true := by
    intro htextual h
    cases hvalue : value.bind Json.Value.nonNull? with
    | none =>
      simp only [observeFlat, hvalue] at h
      exact h
    | some v =>
      simp only [observeFlat, hvalue] at h
      rw [← unique_retype htextual]
      exact unique_of_observeText h
  refine ⟨?_, ?_, ?_, hunique, ?_⟩
  · rw [hflat]
  · rw [hflat]
    exact fun h => (Bool.and_eq_true_iff.mp h).1
  · rw [hflat]
    by_cases hnullish : f.type = .nullish
    · exact Or.inr (Or.inr hnullish)
    · exact (typeAfter_eq_or hnullish value).imp_right Or.inl
  · intro hnone
    simp only [observeFlat, hnone]

/-! ## The sub-fields of a component -/

/-- What a value can make of sub-fields: those that were there move one way, each by what the value holds
under its name, and keep their places; others come after them.  No sub-field has sub-fields of its own. -/
structure Extends (value : Option Json.Value) (before after : List Field) : Prop where
  distinct : (after.map Field.name).Nodup
  flat : ∀ g ∈ after, g.subFields = []
  kept : ∃ kept added, after = kept ++ added ∧
    List.Forall₂ (fun f g => f.Moves (value.bind (Json.Value.member? f.name)) g) before kept

/-- Sub-fields may stay. -/
theorem Extends.refl (value : Option Json.Value) {fs : List Field}
    (hdistinct : (fs.map Field.name).Nodup) (hflat : ∀ g ∈ fs, g.subFields = []) :
    Extends value fs fs :=
  ⟨hdistinct, hflat, fs, [], (List.append_nil fs).symm,
    List.forall₂_same.mpr fun f _ => Moves.refl _ f⟩

section Component

variable {members : Json.Members} {before fs : List Field}

/-- What is observed under a key is put under it: it has no sub-fields, and it is what the value moves the
descriptor to that was there. -/
theorem observeKey_eq_upsert (members : Json.Members) (hflat : ∀ g ∈ fs, g.subFields = [])
    (heading : String) (late : Bool) (b : Notebook) (key : String) :
    ∃ g, (observeKey heading late members (fs, b) key).1 = Keyed.upsert Field.name g fs ∧
      g.name = key ∧ g.subFields = [] ∧
      ∀ f ∈ Keyed.find? Field.name key fs, f.Moves (Keyed.get? key members) g := by
  unfold observeKey
  dsimp only
  refine ⟨_, rfl, ?_⟩
  cases hexisting : Keyed.find? Field.name key fs with
  | none =>
    obtain ⟨unique, hlooked⟩ :=
      observeFlat_none (subHeading heading key) key (Keyed.get? key members) b
    rw [hlooked]
    cases late <;> simp
  | some f =>
    obtain ⟨hmem, hname⟩ := Keyed.mem_and_name_of_find? hexisting
    obtain ⟨unique, hlooked⟩ :=
      observeFlat_some (subHeading heading key) key f (Keyed.get? key members) b
    have hmoves := moves_observeFlat (subHeading heading key) key f (Keyed.get? key members) b
    simp only [Option.isNone_some, Bool.false_and, Bool.false_eq_true, if_false]
    refine ⟨hmoves.name.trans hname, ?_, fun f' hf' => ?_⟩
    · rw [hlooked]
      simp [hflat f hmem]
    · obtain rfl := Option.some.inj hf'
      exact hmoves

/-- **One key.**  Observing a key goes on extending the sub-fields. -/
theorem extends_observeKey (h : Extends (some (.object members)) before fs) (heading : String)
    (late : Bool) (b : Notebook) (key : String) :
    Extends (some (.object members)) before (observeKey heading late members (fs, b) key).1 := by
  obtain ⟨g, hput, rfl, hflat, hmoves⟩ := observeKey_eq_upsert members h.flat heading late b key
  obtain ⟨kept, added, rfl, hkept⟩ := h.kept
  rw [hput]
  refine ⟨Keyed.nodup_map_upsert h.distinct, fun g' hg' => ?_, ?_⟩
  · rcases Keyed.mem_upsert hg' with rfl | hg'
    · exact hflat
    · exact h.flat g' hg'
  · by_cases hmem : g.name ∈ kept.map Field.name
    · -- The key is that of a sub-field that was there before, which moves on in its place.
      rcases hexisting : Keyed.find? Field.name g.name kept with _ | f
      · exact absurd hmem (Keyed.find?_eq_none_iff.mp hexisting)
      · have hfound : Keyed.find? Field.name g.name (kept ++ added) = some f := by
          rw [Keyed.find?_eq_find?, List.find?_append, ← Keyed.find?_eq_find?, hexisting]
          rfl
        have hmoved := hmoves f hfound
        have hname := (Keyed.mem_and_name_of_find? hexisting).2
        rw [Keyed.upsert_append_of_mem hmem]
        refine ⟨_, added, rfl, Keyed.forall₂_upsert hexisting (fun z hz => hz.trans ?_) hkept⟩
        rwa [← hz.name, hname]
    · rw [Keyed.upsert_append_of_notMem hmem]
      exact ⟨kept, _, rfl, hkept⟩

/-- **All keys.**  Observing keys one after the other extends the sub-fields. -/
theorem extends_foldl_observeKey (h : Extends (some (.object members)) before fs) (heading : String)
    (late : Bool) (keys : List String) (b : Notebook) :
    Extends (some (.object members)) before
      (keys.foldl (observeKey heading late members) (fs, b)).1 := by
  induction keys using List.reverseRecOn with
  | nil => exact h
  | append_singleton keys key ih =>
    rw [List.foldl_concat]
    exact extends_observeKey ih heading late _ key

end Component

/-! ## One observation -/

section Observation

variable (reserved : Reserved) (name : String) (value : Option Json.Value) (b : Notebook) {f : Field}

/-- **One observation.**  It moves a descriptor one way. -/
theorem moves_observe (f : Field) : f.Moves value (observe reserved name (some f) value b).1 := by
  have hflat := moves_observeFlat name name f value b
  rcases observe_cases reserved name (some f) value b with h | ⟨members, rfl, -, h⟩
  · rw [h]
    exact hflat
  · rw [h]
    exact ⟨hflat.name, hflat.required, hflat.type, hflat.unique, nofun⟩

/-- Only components have sub-fields after an observation. -/
theorem type_of_subFields_observe (hf : f.WellFormed .none)
    (h : (observe reserved name (some f) value b).1.subFields ≠ []) :
    (observe reserved name (some f) value b).1.type = .component := by
  obtain ⟨unique, hlooked⟩ := observeFlat_some name name f value b
  rcases observe_cases reserved name (some f) value b with heq | ⟨members, -, hcomponent, heq⟩
  · rw [heq, hlooked] at h ⊢
    dsimp only at h ⊢
    split at h
    · rename_i hkeeps
      rw [hf.component h] at hkeeps
      exact or_self_iff.mp hkeeps
    · exact absurd rfl h
  · rw [heq]
    exact hcomponent

/-- **Staying.**  A field that does not become something else than a component keeps its sub-fields, which
may move and get others after them. -/
theorem extends_observe (hf : f.WellFormed .none)
    (hstays : f.type = .component → (observe reserved name (some f) value b).1.type = .component) :
    Extends value f.subFields (observe reserved name (some f) value b).1.subFields := by
  have hbefore := Extends.refl value hf.distinct hf.flat
  have hsame : (observeFlat name name (some f) value b).1.subFields = f.subFields := by
    obtain ⟨unique, hlooked⟩ := observeFlat_some name name f value b
    rw [type_observe, hlooked] at hstays
    rw [hlooked]
    by_cases htype : f.type = .component
    · exact if_pos (Or.inr (hstays htype))
    · have hnone : f.subFields = [] := by
        by_contra hsome
        exact htype (hf.component hsome)
      simp [hnone]
  rcases observe_cases reserved name (some f) value b with h | ⟨members, rfl, -, h⟩
  · rwa [h, hsame]
  · rw [h]
    refine extends_foldl_observeKey ?_ _ _ _ _
    rwa [hsame]

end Observation

/-- **One way.**  An observation keeps the name of a well-formed descriptor, which stays well-formed and
moves one way, whatever was observed before.  Its sub-fields are dropped when it stops being a component;
otherwise they keep their places, and each of them moves by the same rules. -/
theorem observe_moves (reserved : Reserved) (name : String) {f : Field} (hf : f.WellFormed .none)
    (value : Option Json.Value) (b : Notebook) :
    let g := (observe reserved name (some f) value b).1
    g.WellFormed .none ∧ f.Moves value g ∧
      (f.type = .component ∧ g.type ≠ .component → g.subFields = []) ∧
      (¬ (f.type = .component ∧ g.type ≠ .component) → Extends value f.subFields g.subFields) := by
  intro g
  have hcomponent : g.subFields ≠ [] → g.type = .component :=
    type_of_subFields_observe reserved name value b hf
  have hleaves : f.type = .component ∧ g.type ≠ .component → g.subFields = [] := by
    rintro ⟨-, hother⟩
    by_contra hsome
    exact hother (hcomponent hsome)
  have hstays : ¬ (f.type = .component ∧ g.type ≠ .component) →
      Extends value f.subFields g.subFields := by
    intro h
    refine extends_observe reserved name value b hf fun hf' => ?_
    by_contra hother
    exact h ⟨hf', hother⟩
  refine ⟨?_, moves_observe reserved name value b f, hleaves, hstays⟩
  by_cases h : f.type = .component ∧ g.type ≠ .component
  · have hnone := hleaves h
    exact ⟨hcomponent, by simp [hnone], by simp [hnone], by simp [hnone]⟩
  · have hextends := hstays h
    exact ⟨hcomponent, hextends.distinct, fun _ _ => List.not_mem_nil, hextends.flat⟩

/-- An author, as another run left it. -/
def author : Field :=
  ⟨"author", .component, true, false,
    [⟨"name", .string, true, true, []⟩, ⟨"bio", .nullish, false, false, []⟩,
      ⟨"born", .date, true, false, []⟩]⟩

/-- What is known of authors: their names and biographies, and one name. -/
def authorPages : Notebook :=
  (Notebook.empty.write "author" ⟨["name", "bio"], 1, [], false⟩).write "author.name"
    ⟨[], 0, ["Ann"], false⟩

/-- An author of the name that is known, with a biography in markup and a link. -/
def secondAnn : Json.Value :=
  .object [("link", .string "a"), ("name", .string "Ann"), ("bio", .string "<p>Hi</p>")]

/-- The name is not unique any more, the biography finds a type, the birthday, which nobody asks for, stays,
and the link comes last. -/
theorem observe_moves_author :
    let after : Field :=
      ⟨"author", .component, true, false,
        [⟨"name", .string, true, false, []⟩, ⟨"bio", .richText, false, true, []⟩,
          ⟨"born", .date, true, false, []⟩, ⟨"link", .string, false, true, []⟩]⟩
    author.WellFormed .none ∧
      (observe .standard "author" (some author) (some secondAnn) authorPages).1 = after ∧
      after.WellFormed .none ∧ author.Moves (some secondAnn) after ∧
      Extends (some secondAnn) author.subFields after.subFields := by
  intro after
  have hbefore : author.WellFormed .none := by decide
  have hafter : (observe .standard "author" (some author) (some secondAnn) authorPages).1 = after := by
    decide +kernel
  obtain ⟨hformed, hmoves, -, hstays⟩ :=
    observe_moves .standard "author" hbefore (some secondAnn) authorPages
  rw [hafter] at hformed hmoves hstays
  exact ⟨hbefore, hafter, hformed, hmoves, hstays (by decide)⟩

end Field

end ContentModel

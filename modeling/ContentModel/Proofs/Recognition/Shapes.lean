import ContentModel.Proofs.Recognition.Checks

/-
# The checks of the shapes

A media asset is read by checks of its formats, of the renditions in them, each key by key, and of its own
keys.  A rendition that may be absent is checked only if it is there.  So an object that is no media asset
is rejected as the first of these checks says that fails, and this names the key at fault unless the key
is that of a rendition which is there and is no object.

Main statements: `follows_media` and `follows_component` (the checks in order), `namesKey_of_component` and
`media_rejections` (the rejection and the key it names).
-/

namespace ContentModel.Recognition

open ContentModel.Json (Value Members Kind)

open Check

/-! ## The checks of a media asset -/

/-- The keys of a rendition, in order. -/
def renditionKeys : List (String × Expectation) := [
  ("name", .string), ("hash", .string), ("ext", .string), ("mime", .string),
  ("width", .number), ("height", .number), ("size", .number), ("url", .string)]

/-- The keys of a media asset besides its formats, in order. -/
def assetKeys : List (String × Expectation) := [
  ("id", .string), ("name", .string), ("alternativeText", .string), ("caption", .string),
  ("hash", .string), ("ext", .string), ("mime", .string), ("size", .number), ("width", .number),
  ("height", .number), ("url", .string), ("provider", .string), ("createdAt", .date),
  ("updatedAt", .date), ("__v", .number)]

/-- The checks of some keys of the object at a path. -/
def keyChecks (path : List String) (keys : List (String × Expectation)) : List Check :=
  keys.map fun (key, expected) => ⟨path ++ [key], expected, false⟩

/-- The checks of a rendition.  That of the rendition itself leaves out the path. -/
def renditionChecks (path : List String) : List Check :=
  ⟨path, .object, true⟩ :: keyChecks path renditionKeys

/-- The checks of a rendition that may be absent. -/
def optionalChecks (v : Value) (path : List String) : List Check :=
  if ((valueAt? path v).bind Value.nonNull?).isSome then renditionChecks path else []

/-- The checks of a media asset, in order. -/
def mediaChecks (v : Value) : List Check :=
  ⟨["formats"], .object, false⟩ :: (renditionChecks ["formats", "thumbnail"] ++
    (optionalChecks v ["formats", "medium"] ++
      (optionalChecks v ["formats", "small"] ++ keyChecks [] assetKeys)))

/-! ## Renditions -/

section Renditions

variable {s : Scope} {v : Value} {path : List String}

/-- The keys of a rendition. -/
theorem follows_renditionKeys (h : s.StandsAt v path) :
    Follows v (do
      let name ← s.string "name"
      let hash ← s.string "hash"
      let ext ← s.string "ext"
      let mime ← s.string "mime"
      let width ← s.number "width"
      let height ← s.number "height"
      let size ← s.number "size"
      let url ← s.string "url"
      .ok ({ name, hash, ext, mime, width, height, size, url } : Rendition))
    (keyChecks path renditionKeys) := by
  refine (follows_string h "name").cons fun name _ => ?_
  refine (follows_string h "hash").cons fun hash _ => ?_
  refine (follows_string h "ext").cons fun ext _ => ?_
  refine (follows_string h "mime").cons fun mime _ => ?_
  refine (follows_number h "width").cons fun width _ => ?_
  refine (follows_number h "height").cons fun height _ => ?_
  refine (follows_number h "size").cons fun size _ => ?_
  refine (follows_string h "url").cons fun url _ => ?_
  exact Follows.ok _

/-- The object of a rendition that is there. -/
theorem follows_ofValue (h : s.StandsAt v path) {key : String} {w : Value} (hw : s.optional? key = some w) :
    Follows v (Scope.ofValue (s.pathOf key) w) [⟨path ++ [key], .object, true⟩] := by
  have hfound : found? ⟨path ++ [key], .object, true⟩ v = some w := (optional?_eq h key).symm.trans hw
  refine Follows.singleton_iff.mpr fun r => ?_
  rw [passes, rejection, hfound]
  cases w <;> simp [Scope.ofValue, Expectation.accepts]

/-- **A rendition.**  If it is there, it is checked key by key. -/
theorem follows_rendition (h : s.StandsAt v path) {key : String} (hkey : key ≠ "") {w : Value}
    (hw : s.optional? key = some w) :
    Follows v (Rendition.ofValue (s.pathOf key) w) (renditionChecks (path ++ [key])) := by
  refine (follows_ofValue h hw).cons fun s' hs' => follows_renditionKeys ?_
  cases w with
  | object members =>
    obtain rfl := Except.ok.inj hs'
    exact standsAt_append h hkey hw
  | _ => cases hs'

/-- A rendition that must be there. -/
theorem follows_required (h : s.StandsAt v path) {key : String} (hkey : key ≠ "") :
    Follows v (s.required key >>= Rendition.ofValue (s.pathOf key)) (renditionChecks (path ++ [key])) := by
  rw [Scope.required]
  cases hvalue : s.optional? key with
  | some w => exact follows_rendition h hkey hvalue
  | none =>
    have hfound : found? ⟨path ++ [key], .object, true⟩ v = none := (optional?_eq h key).symm.trans hvalue
    have hrejection : rejection ⟨path ++ [key], .object, true⟩ v = .missingKey (s.pathOf key) := by
      rw [rejection, hfound, ← pathOf_eq h key]
    show Follows v (.error (.missingKey (s.pathOf key))) _
    rw [← hrejection]
    exact Follows.error (by rw [passes, hfound]; rfl)

/-- A rendition that may be absent. -/
theorem follows_ofOptional (h : s.StandsAt v path) {key : String} (hkey : key ≠ "") :
    Follows v (Rendition.ofOptional s key) (optionalChecks v (path ++ [key])) := by
  rw [Rendition.ofOptional, optionalChecks, ← optional?_eq h key]
  cases hvalue : s.optional? key with
  | none => exact Follows.ok none
  | some w => exact (follows_rendition h hkey hvalue).map

end Renditions

/-! ## Whole values -/

/-- **A media asset.**  Reading an object as one checks its formats, its renditions and its keys, in
order. -/
theorem follows_media (members : Members) :
    Follows (.object members) (MediaAsset.ofValue (.object members)) (mediaChecks (.object members)) := by
  have h := standsAt_nil members
  rw [MediaAsset.ofValue]
  show Follows _ (Scope.object ⟨"", members⟩ "formats" >>= _) _
  -- The renditions first, in the object of the formats.
  refine (follows_object h "formats").cons fun formats hformats => ?_
  have hstands := standsAt_of_object h (by decide) hformats
  -- Finding the thumbnail and reading it are two steps, but one sequence of checks.
  rw [← bind_assoc]
  refine (follows_required hstands (by decide)).bind fun thumbnail _ => ?_
  refine (follows_ofOptional hstands (by decide)).bind fun medium _ => ?_
  refine (follows_ofOptional hstands (by decide)).bind fun small _ => ?_
  -- Then the keys of the asset itself.
  refine (follows_string h "id").cons fun id _ => ?_
  refine (follows_string h "name").cons fun name _ => ?_
  refine (follows_string h "alternativeText").cons fun alternativeText _ => ?_
  refine (follows_string h "caption").cons fun caption _ => ?_
  refine (follows_string h "hash").cons fun hash _ => ?_
  refine (follows_string h "ext").cons fun ext _ => ?_
  refine (follows_string h "mime").cons fun mime _ => ?_
  refine (follows_number h "size").cons fun size _ => ?_
  refine (follows_number h "width").cons fun width _ => ?_
  refine (follows_number h "height").cons fun height _ => ?_
  refine (follows_string h "url").cons fun url _ => ?_
  refine (follows_string h "provider").cons fun provider _ => ?_
  refine (follows_date h "createdAt").cons fun createdAt _ => ?_
  refine (follows_date h "updatedAt").cons fun updatedAt _ => ?_
  refine (follows_number h "__v").cons fun version _ => ?_
  exact Follows.ok _

/-- A component is checked for its identifier only. -/
theorem follows_component (members : Members) :
    Follows (.object members) (componentMembers (.object members)) [⟨["id"], .stringOrNumber, false⟩] :=
  follows_read (standsAt_nil members) "id" .stringOrNumber fun w r => by
    cases w <;> simp [Expectation.accepts]

/-! ## The key at fault -/

/-- A rejection that names the key of a check: the key is absent or null, or has a value of another kind. -/
inductive NamesKey (v : Value) (c : Check) : Rejection → Prop where
  | missing (absent : valueAt? c.path v = none ∨ valueAt? c.path v = some .null) :
      NamesKey v c (.missingKey (dotted c.path))
  | wrongType {w : Value} (present : valueAt? c.path v = some w) (nonNull : w ≠ .null)
      (wrong : c.expected.accepts w = false) :
      NamesKey v c (.wrongType (dotted c.path) c.expected w.kind)

/-- The check of a media asset that fails after all before it have passed. -/
def IsFirstFault (v : Value) (c : Check) : Prop :=
  ∃ before after, mediaChecks v = before ++ c :: after ∧
    (∀ b ∈ before, b.passes v = true) ∧ c.passes v = false

/-- The paths of the renditions. -/
def renditionPaths : List (List String) := [
  ["formats", "thumbnail"], ["formats", "medium"], ["formats", "small"]]

section Faults

variable {v : Value} {c : Check} {r : Rejection}

/-- The first fault gives the rejection. -/
theorem media_eq_error_iff {members : Members} :
    MediaAsset.ofValue (.object members) = .error r ↔
      ∃ c, IsFirstFault (.object members) c ∧ c.rejection (.object members) = r := by
  rw [(follows_media members).eq_error_iff]
  constructor
  · rintro ⟨before, c, after, hsplit, hbefore, hc, hr⟩
    exact ⟨c, ⟨before, after, hsplit, hbefore, hc⟩, hr⟩
  · rintro ⟨c, ⟨before, after, hsplit, hbefore, hc⟩, hr⟩
    exact ⟨before, c, after, hsplit, hbefore, hc, hr⟩

/-- A check leaves out the path if it is made so, and only of a value that is there. -/
theorem rejection_eq_notAnObject_iff {kind : Kind} :
    c.rejection v = .notAnObject kind ↔
      c.unnamed = true ∧ ∃ w, c.found? v = some w ∧ w.kind = kind := by
  rw [rejection]
  cases c.found? v with
  | none => simp
  | some w => cases hunnamed : c.unnamed <;> simp

/-- A check that fails and does not leave out the path names its key. -/
theorem namesKey_of_ne_notAnObject (hfault : c.passes v = false)
    (h : ∀ kind, c.rejection v ≠ .notAnObject kind) : NamesKey v c (c.rejection v) := by
  rw [passes] at hfault
  rw [rejection] at h ⊢
  cases hfound : c.found? v with
  | none => exact .missing (bind_nonNull?_eq_none_iff.mp hfound)
  | some w =>
    obtain ⟨hpresent, hnonNull⟩ := bind_nonNull?_eq_some_iff.mp hfound
    rw [hfound] at h hfault
    cases hunnamed : c.unnamed with
    | true => exact absurd (if_pos hunnamed) (h w.kind)
    | false => exact .wrongType hpresent hnonNull hfault

/-- The checks of a media asset, by what they check: the formats, a rendition with its keys, or a key of the
asset. -/
theorem mem_mediaChecks (h : c ∈ mediaChecks v) :
    c = ⟨["formats"], .object, false⟩ ∨ (∃ path ∈ renditionPaths, c ∈ renditionChecks path) ∨
      c ∈ keyChecks [] assetKeys := by
  have hoptional : ∀ path, c ∈ optionalChecks v path → c ∈ renditionChecks path := by
    intro path hc
    rw [optionalChecks] at hc
    split at hc
    · exact hc
    · cases hc
  rw [mediaChecks, List.mem_cons, List.mem_append, List.mem_append, List.mem_append] at h
  obtain h | h | h | h | h := h
  · exact .inl h
  · exact .inr (.inl ⟨_, by decide, h⟩)
  · exact .inr (.inl ⟨_, by decide, hoptional _ h⟩)
  · exact .inr (.inl ⟨_, by decide, hoptional _ h⟩)
  · exact .inr (.inr h)

/-- The checks of keys leave nothing out. -/
theorem unnamed_of_mem_keyChecks {path : List String} {keys : List (String × Expectation)}
    (h : c ∈ keyChecks path keys) : c.unnamed = false := by
  obtain ⟨key, -, rfl⟩ := List.mem_map.mp h
  rfl

/-- The checks of a media asset that leave out the path are those of the renditions. -/
theorem eq_of_unnamed (h : c ∈ mediaChecks v) (hunnamed : c.unnamed = true) :
    ∃ path ∈ renditionPaths, c = ⟨path, .object, true⟩ := by
  obtain rfl | ⟨path, hpath, h⟩ | h := mem_mediaChecks h
  · cases hunnamed
  · obtain rfl | h := List.mem_cons.mp h
    · exact ⟨path, hpath, rfl⟩
    · cases (unnamed_of_mem_keyChecks h).symm.trans hunnamed
  · cases (unnamed_of_mem_keyChecks h).symm.trans hunnamed

/-- The rejection of an object as a component names the identifier. -/
theorem namesKey_of_component {members : Members}
    (h : componentMembers (.object members) = .error r) :
    NamesKey (.object members) ⟨["id"], .stringOrNumber, false⟩ r := by
  obtain ⟨hfault, rfl⟩ := (Follows.singleton_iff.mp (follows_component members) r).mp h
  refine namesKey_of_ne_notAnObject hfault fun kind hkind => ?_
  cases (rejection_eq_notAnObject_iff.mp hkind).1

end Faults

/-- **Rejections.**  The rejection of an object as a media asset names the first key at fault, if it names
any.  It names none exactly if this key is that of a rendition which is there and is no object. -/
theorem media_rejections (members : Members) :
    let v := Value.object members
    (∀ r, MediaAsset.ofValue v = .error r →
      ((∃ c, IsFirstFault v c ∧ NamesKey v c r) ↔ ∀ kind, r ≠ .notAnObject kind)) ∧
    ∀ kind, MediaAsset.ofValue v = .error (.notAnObject kind) ↔
      ∃ path ∈ renditionPaths, ∃ w, IsFirstFault v ⟨path, .object, true⟩ ∧
        valueAt? path v = some w ∧ w ≠ .null ∧ w.kind = kind := by
  refine ⟨fun r hr => ⟨?_, fun hnamed => ?_⟩, fun kind => media_eq_error_iff.trans ⟨?_, ?_⟩⟩
  · rintro ⟨c, -, hnames⟩ kind rfl
    cases hnames
  · obtain ⟨c, hfault, rfl⟩ := media_eq_error_iff.mp hr
    have ⟨_, _, _, _, hc⟩ := hfault
    exact ⟨c, hfault, namesKey_of_ne_notAnObject hc hnamed⟩
  · rintro ⟨c, hfault, hr⟩
    have ⟨_, _, hsplit, _, _⟩ := hfault
    obtain ⟨hunnamed, w, hfound, hkind⟩ := rejection_eq_notAnObject_iff.mp hr
    obtain ⟨path, hpath, rfl⟩ := eq_of_unnamed (hsplit ▸ List.mem_append_cons_self) hunnamed
    obtain ⟨hpresent, hnonNull⟩ := bind_nonNull?_eq_some_iff.mp hfound
    exact ⟨path, hpath, w, hfault, hpresent, hnonNull, hkind⟩
  · rintro ⟨path, -, w, hfault, hpresent, hnonNull, hkind⟩
    have hfound := bind_nonNull?_eq_some_iff.mpr ⟨hpresent, hnonNull⟩
    exact ⟨_, hfault, rejection_eq_notAnObject_iff.mpr ⟨rfl, w, hfound, hkind⟩⟩

/-- The first key of a thumbnail is null. -/
example :
    MediaAsset.ofValue (.object [("formats", .object [("thumbnail", .object [("name", .null)])])]) =
      .error (.missingKey "formats.thumbnail.name") := by
  rfl

/-- An object whose thumbnail is a number is rejected without a word of the thumbnail. -/
theorem not_named_of_thumbnail_number :
    let v := Value.object [("formats", .object [("thumbnail", .number (.integer 5))])]
    MediaAsset.ofValue v = .error (.notAnObject .number) ∧
      valueAt? ["formats", "thumbnail"] v = some (.number (.integer 5)) ∧
      ∀ c, ¬ NamesKey v c (.notAnObject .number) :=
  ⟨rfl, rfl, fun _ => nofun⟩

end ContentModel.Recognition

import ContentModel.Proofs.Recognition.Shapes
import ContentModel.Proofs.Traversal

/-
# Which values are media assets

A value is read as a media asset exactly if each of its keys holds what the table of keys says, and the asset
then holds what stands under these keys.

Main statements: `exists_media_iff` (which values are read) and `media_eq_ok_iff` (what is read).
-/

namespace ContentModel.Recognition

open ContentModel.Json (Value Members Kind)

open Check

/-! ## Values that pass all checks -/

/-- A check passes exactly if there is a value at its path, and one that is expected. -/
theorem passes_iff {c : Check} {v : Value} :
    c.passes v = true ↔ ∃ w, valueAt? c.path v = some w ∧ c.expected.accepts w = true := by
  unfold passes found?
  cases valueAt? c.path v with
  | none => simp
  | some w => cases w <;> cases c.expected <;> simp [Value.nonNull?, Expectation.accepts]

/-- A read succeeds exactly if all its checks pass. -/
theorem Follows.exists_eq_ok_iff {α : Type} {v : Value} {read : Except Rejection α} {cs : List Check}
    (h : Follows v read cs) : (∃ a, read = .ok a) ↔ ∀ c ∈ cs, c.passes v = true := by
  have hnone : firstFault? cs v = none ↔ ∀ c ∈ cs, c.passes v = true := by
    simp [firstFault?]
  rw [← hnone]
  cases hread : read with
  | ok a =>
    rw [hread] at h
    exact iff_of_true ⟨a, rfl⟩ h.firstFault?_eq_none
  | error r =>
    obtain ⟨c, hfault, -⟩ := Option.map_eq_some_iff.mp ((h r).mp hread)
    rw [hfault]
    exact iff_of_false (by rintro ⟨a, ha⟩; cases ha) (Option.some_ne_none c)

/-- Whether the members of an object have some keys, each with what is expected. -/
def HasKeys (keys : List (String × Expectation)) (members : Members) : Prop :=
  ∀ key ∈ keys, ∃ v, Keyed.get? key.1 members = some v ∧ key.2.accepts v = true

/-- Whether a value is a rendition: an object with the keys of one. -/
def IsRendition (v : Value) : Prop :=
  ∃ members, v = .object members ∧ HasKeys renditionKeys members

/-- Whether a value is a media asset: an object with the keys of one, whose formats hold a rendition as the
thumbnail and no others than renditions as the medium and the small one. -/
def IsMedia (v : Value) : Prop :=
  ∃ members formats thumbnail, v = .object members ∧ HasKeys assetKeys members ∧
    Keyed.get? "formats" members = some (.object formats) ∧
    Keyed.get? "thumbnail" formats = some thumbnail ∧ IsRendition thumbnail ∧
    ∀ key ∈ ["medium", "small"], ∀ w, Keyed.get? key formats = some w → w = .null ∨ IsRendition w

/-- A path that goes on from an object at a path leads to the member of the object. -/
theorem valueAt?_append_of_object {v : Value} {path : List String} {members : Members}
    (h : valueAt? path v = some (.object members)) (key : String) :
    valueAt? (path ++ [key]) v = Keyed.get? key members := by
  rw [valueAt?_append, h]
  rfl

/-- The checks of some keys pass exactly if the object has them. -/
theorem forall_mem_keyChecks_iff {v : Value} {path : List String} {members : Members}
    (h : valueAt? path v = some (.object members)) (keys : List (String × Expectation)) :
    (∀ c ∈ keyChecks path keys, c.passes v = true) ↔ HasKeys keys members := by
  unfold keyChecks HasKeys
  rw [List.forall_mem_map]
  refine forall₂_congr fun key _ => ?_
  rw [passes_iff, valueAt?_append_of_object h]

/-- The checks of a rendition pass exactly if there is one. -/
theorem forall_mem_renditionChecks_iff {v : Value} {path : List String} :
    (∀ c ∈ renditionChecks path, c.passes v = true) ↔ ∃ w, valueAt? path v = some w ∧ IsRendition w := by
  unfold renditionChecks IsRendition
  rw [List.forall_mem_cons, passes_iff]
  constructor
  · rintro ⟨⟨w, hw, hobject⟩, hkeys⟩
    cases w with
    | object members => exact ⟨_, hw, members, rfl, (forall_mem_keyChecks_iff hw _).mp hkeys⟩
    | _ => cases hobject
  · rintro ⟨_, hw, members, rfl, hkeys⟩
    exact ⟨⟨_, hw, rfl⟩, (forall_mem_keyChecks_iff hw _).mpr hkeys⟩

/-- The checks of a rendition that may be absent pass exactly if what is there is null or a rendition. -/
theorem forall_mem_optionalChecks_iff {v : Value} {path : List String} :
    (∀ c ∈ optionalChecks v path, c.passes v = true) ↔
      ∀ w, valueAt? path v = some w → w = .null ∨ IsRendition w := by
  unfold optionalChecks
  cases hfound : (valueAt? path v).bind Value.nonNull? with
  | none =>
    rw [if_neg (by simp)]
    refine iff_of_true (by simp) fun w hw => ?_
    rcases bind_nonNull?_eq_none_iff.mp hfound with hnone | hnull
    · exact absurd hw (by simp [hnone])
    · exact .inl (Option.some.inj (hw.symm.trans hnull))
  | some w =>
    obtain ⟨hw, hnonNull⟩ := bind_nonNull?_eq_some_iff.mp hfound
    rw [Option.isSome_some, if_pos rfl, forall_mem_renditionChecks_iff, hw]
    simp [hnonNull]

/-- **Which values are read.**  A value is read as a media asset exactly if it is one. -/
theorem exists_media_iff {v : Value} : (∃ asset, MediaAsset.ofValue v = .ok asset) ↔ IsMedia v := by
  cases v with
  | object members =>
    have hroot : valueAt? [] (.object members) = some (.object members) := rfl
    rw [(follows_media members).exists_eq_ok_iff, mediaChecks, List.forall_mem_cons,
      List.forall_mem_append, List.forall_mem_append, List.forall_mem_append,
      forall_mem_renditionChecks_iff, forall_mem_optionalChecks_iff, forall_mem_optionalChecks_iff,
      forall_mem_keyChecks_iff hroot, passes_iff]
    constructor
    · rintro ⟨⟨w, hw, hobject⟩, ⟨thumbnail, hthumbnail, hrendition⟩, hmedium, hsmall, hkeys⟩
      cases w with
      | object formats =>
        have hformats := valueAt?_append_of_object hw
        refine ⟨members, formats, thumbnail, rfl, hkeys, ?_, ?_, hrendition, ?_⟩
        · rw [← hw, ← valueAt?_append_of_object hroot]
          rfl
        · rw [← hformats]
          exact hthumbnail
        · rw [List.forall_mem_cons, List.forall_mem_singleton, ← hformats, ← hformats]
          exact ⟨hmedium, hsmall⟩
      | _ => cases hobject
    · rintro ⟨_, formats, thumbnail, hmembers, hkeys, hw, hthumbnail, hrendition, hoptional⟩
      obtain rfl := Value.object.inj hmembers
      have hw : valueAt? ["formats"] (.object members) = some (.object formats) :=
        (valueAt?_append_of_object hroot "formats").trans hw
      have hformats := valueAt?_append_of_object hw
      rw [List.forall_mem_cons, List.forall_mem_singleton, ← hformats, ← hformats] at hoptional
      exact ⟨⟨_, hw, rfl⟩, ⟨thumbnail, (hformats "thumbnail").trans hthumbnail, hrendition⟩,
        hoptional.1, hoptional.2, hkeys⟩
  | _ =>
    refine iff_of_false ?_ ?_
    · rintro ⟨asset, hread⟩
      cases hread
    · rintro ⟨members, -, -, hmembers, -⟩
      cases hmembers

/-! ## What is read -/

/-- A text stands at a path. -/
def TextAt (v : Value) (path : List String) (text : String) : Prop :=
  valueAt? path v = some (.string text)

/-- A date-like text stands at a path. -/
def DateAt (v : Value) (path : List String) (text : String) : Prop :=
  TextAt v path text ∧ isDateLike text = true

/-- A number stands at a path that is, as a floating point number, the given one. -/
def NumberAt (v : Value) (path : List String) (x : Binary64) : Prop :=
  ∃ n, valueAt? path v = some (.number n) ∧ n.toBinary64 = x

/-- A rendition holds what stands under the keys of the object at a path. -/
structure Rendition.ReadAt (r : Rendition) (v : Value) (path : List String) : Prop where
  name : TextAt v (path ++ ["name"]) r.name
  hash : TextAt v (path ++ ["hash"]) r.hash
  ext : TextAt v (path ++ ["ext"]) r.ext
  mime : TextAt v (path ++ ["mime"]) r.mime
  width : NumberAt v (path ++ ["width"]) r.width
  height : NumberAt v (path ++ ["height"]) r.height
  size : NumberAt v (path ++ ["size"]) r.size
  url : TextAt v (path ++ ["url"]) r.url

/-- A rendition that may be absent is the one at a path, or there is nothing but null there. -/
inductive OptionalAt (v : Value) (path : List String) : Option Rendition → Prop
  | absent (h : valueAt? path v = none ∨ valueAt? path v = some .null) : OptionalAt v path none
  | rendition {r : Rendition} (h : r.ReadAt v path) : OptionalAt v path (some r)

/-- A media asset holds what stands under the keys of a value. -/
structure MediaAsset.ReadFrom (asset : MediaAsset) (v : Value) : Prop where
  id : TextAt v ["id"] asset.id
  name : TextAt v ["name"] asset.name
  alternativeText : TextAt v ["alternativeText"] asset.alternativeText
  caption : TextAt v ["caption"] asset.caption
  hash : TextAt v ["hash"] asset.hash
  ext : TextAt v ["ext"] asset.ext
  mime : TextAt v ["mime"] asset.mime
  size : NumberAt v ["size"] asset.size
  width : NumberAt v ["width"] asset.width
  height : NumberAt v ["height"] asset.height
  url : TextAt v ["url"] asset.url
  provider : TextAt v ["provider"] asset.provider
  createdAt : DateAt v ["createdAt"] asset.createdAt
  updatedAt : DateAt v ["updatedAt"] asset.updatedAt
  version : NumberAt v ["__v"] asset.version
  thumbnail : asset.thumbnail.ReadAt v ["formats", "thumbnail"]
  medium : OptionalAt v ["formats", "medium"] asset.medium
  small : OptionalAt v ["formats", "small"] asset.small

section Reads

variable {s : Scope} {v : Value} {path : List String}

/-- The value of a key that must be there. -/
theorem required_eq_ok_iff (h : s.StandsAt v path) {key : String} {w : Value} :
    s.required key = .ok w ↔ valueAt? (path ++ [key]) v = some w ∧ w ≠ .null := by
  rw [Scope.required, optional?_eq h, ← bind_nonNull?_eq_some_iff]
  cases (valueAt? (path ++ [key]) v).bind Value.nonNull? <;> simp

/-- Reading a key that must be there goes on from its value. -/
theorem required_bind_eq_ok_iff {α : Type} (h : s.StandsAt v path) {key : String}
    {read : Value → Except Rejection α} {a : α} :
    s.required key >>= read = .ok a ↔
      ∃ w, valueAt? (path ++ [key]) v = some w ∧ w ≠ .null ∧ read w = .ok a := by
  rw [bind_eq_ok_iff]
  simp only [required_eq_ok_iff h, and_assoc]

/-- The text of a key. -/
theorem string_eq_ok_iff (h : s.StandsAt v path) {key text : String} :
    s.string key = .ok text ↔ TextAt v (path ++ [key]) text := by
  rw [Scope.string, required_bind_eq_ok_iff h, TextAt]
  constructor
  · rintro ⟨w, hw, -, hread⟩
    cases w <;> cases hread
    exact hw
  · intro hw
    exact ⟨_, hw, by rintro ⟨⟩, rfl⟩

/-- The number of a key. -/
theorem number_eq_ok_iff (h : s.StandsAt v path) {key : String} {x : Binary64} :
    s.number key = .ok x ↔ NumberAt v (path ++ [key]) x := by
  rw [Scope.number, required_bind_eq_ok_iff h, NumberAt]
  constructor
  · rintro ⟨w, hw, -, hread⟩
    cases w <;> cases hread
    exact ⟨_, hw, rfl⟩
  · rintro ⟨n, hw, rfl⟩
    exact ⟨_, hw, by rintro ⟨⟩, rfl⟩

/-- The date-like text of a key. -/
theorem date_eq_ok_iff (h : s.StandsAt v path) {key text : String} :
    s.date key = .ok text ↔ DateAt v (path ++ [key]) text := by
  rw [Scope.date, required_bind_eq_ok_iff h, DateAt, TextAt]
  constructor
  · rintro ⟨w, hw, -, hread⟩
    cases w with
    | string t =>
      dsimp only at hread
      by_cases hdate : isDateLike t = true
      · rw [if_pos hdate] at hread
        obtain rfl := Except.ok.inj hread
        exact ⟨hw, hdate⟩
      · rw [if_neg hdate] at hread
        cases hread
    | _ => cases hread
  · rintro ⟨hw, hdate⟩
    exact ⟨_, hw, by rintro ⟨⟩, if_pos hdate⟩

/-- The object of a key. -/
theorem object_eq_ok_iff (h : s.StandsAt v path) {key : String} {s' : Scope} :
    s.object key = .ok s' ↔
      ∃ members, valueAt? (path ++ [key]) v = some (.object members) ∧ s' = ⟨s.pathOf key, members⟩ := by
  rw [Scope.object, required_bind_eq_ok_iff h]
  constructor
  · rintro ⟨w, hw, -, hread⟩
    cases w <;> cases hread
    exact ⟨_, hw, rfl⟩
  · rintro ⟨members, hw, rfl⟩
    exact ⟨_, hw, by rintro ⟨⟩, rfl⟩

/-- A path that goes on leads through an object. -/
theorem exists_object_of_valueAt? {key : String} {w : Value} (h : valueAt? (path ++ [key]) v = some w) :
    ∃ members, valueAt? path v = some (.object members) := by
  rw [valueAt?_append, Option.bind_eq_some_iff] at h
  obtain ⟨u, hu, hmember⟩ := h
  cases u with
  | object members => exact ⟨members, hu⟩
  | _ => cases hmember

/-- The rendition of a key. -/
theorem rendition_eq_ok_iff (h : s.StandsAt v path) {key : String} (hkey : key ≠ "") {w : Value}
    (hw : s.optional? key = some w) {r : Rendition} :
    Rendition.ofValue (s.pathOf key) w = .ok r ↔ r.ReadAt v (path ++ [key]) := by
  have hpath : valueAt? (path ++ [key]) v = some w := by
    rw [optional?_eq h] at hw
    exact (bind_nonNull?_eq_some_iff.mp hw).1
  cases w with
  | object members =>
    have hstands := standsAt_append h hkey hw
    rw [Rendition.ofValue]
    simp only [Scope.ofValue, bind_eq_ok_iff, Except.ok.injEq, exists_eq_left', string_eq_ok_iff hstands,
      number_eq_ok_iff hstands]
    constructor
    · rintro ⟨name, hname, hash, hhash, ext, hext, mime, hmime, width, hwidth, height, hheight, size, hsize,
        url, hurl, rfl⟩
      exact ⟨hname, hhash, hext, hmime, hwidth, hheight, hsize, hurl⟩
    · rintro ⟨hname, hhash, hext, hmime, hwidth, hheight, hsize, hurl⟩
      exact ⟨_, hname, _, hhash, _, hext, _, hmime, _, hwidth, _, hheight, _, hsize, _, hurl, rfl⟩
  | _ =>
    refine iff_of_false (by rintro ⟨⟩) fun hread => ?_
    obtain ⟨members, hmembers⟩ := exists_object_of_valueAt? hread.name
    cases hpath.symm.trans hmembers

/-- A rendition stands under a key only if something does. -/
theorem Rendition.ReadAt.optional?_ne_none (h : s.StandsAt v path) {key : String} {r : Rendition}
    (hread : r.ReadAt v (path ++ [key])) : s.optional? key ≠ none := by
  obtain ⟨members, hmembers⟩ := exists_object_of_valueAt? hread.name
  rw [optional?_eq h, hmembers]
  exact Option.some_ne_none _

/-- The rendition of a key that must be there. -/
theorem required_rendition_eq_ok_iff (h : s.StandsAt v path) {key : String} (hkey : key ≠ "")
    {r : Rendition} :
    s.required key >>= Rendition.ofValue (s.pathOf key) = .ok r ↔ r.ReadAt v (path ++ [key]) := by
  rw [Scope.required]
  cases hvalue : s.optional? key with
  | some w => exact rendition_eq_ok_iff h hkey hvalue
  | none => exact iff_of_false (by rintro ⟨⟩) fun hread => hread.optional?_ne_none h hvalue

/-- The rendition of a key that may be absent. -/
theorem ofOptional_eq_ok_iff (h : s.StandsAt v path) {key : String} (hkey : key ≠ "")
    {r : Option Rendition} :
    Rendition.ofOptional s key = .ok r ↔ OptionalAt v (path ++ [key]) r := by
  rw [Rendition.ofOptional]
  cases hvalue : s.optional? key with
  | none =>
    have habsent := bind_nonNull?_eq_none_iff.mp ((optional?_eq h key).symm.trans hvalue)
    constructor
    · intro hread
      obtain rfl := Except.ok.inj hread
      exact .absent habsent
    · rintro (hnone | hread)
      · rfl
      · exact absurd hvalue (hread.optional?_ne_none h)
  | some w =>
    have hpresent := bind_nonNull?_eq_some_iff.mp ((optional?_eq h key).symm.trans hvalue)
    dsimp only
    constructor
    · intro hread
      cases hrendition : Rendition.ofValue (s.pathOf key) w with
      | error e => rw [hrendition] at hread; cases hread
      | ok r' =>
        rw [hrendition] at hread
        obtain rfl := Except.ok.inj hread
        exact .rendition ((rendition_eq_ok_iff h hkey hvalue).mp hrendition)
    · rintro (hnone | hread)
      · rw [hpresent.1] at hnone
        simp [hpresent.2] at hnone
      · rw [(rendition_eq_ok_iff h hkey hvalue).mpr hread]
        rfl

end Reads

/-- **What is read.**  A value is read as a media asset exactly if the asset holds what stands under the keys
of the value. -/
theorem media_eq_ok_iff {v : Value} {asset : MediaAsset} :
    MediaAsset.ofValue v = .ok asset ↔ asset.ReadFrom v := by
  cases v with
  | object members =>
    have h := standsAt_nil members
    rw [MediaAsset.ofValue]
    show Scope.object ⟨"", members⟩ "formats" >>= _ = _ ↔ _
    simp only [bind_eq_ok_iff, Except.ok.injEq, string_eq_ok_iff h, number_eq_ok_iff h, date_eq_ok_iff h,
      List.nil_append]
    constructor
    · rintro ⟨formats, hformats, w, hw, thumbnail, hthumbnail, medium, hmedium, small, hsmall, hrest⟩
      have hstands := standsAt_of_object h (by decide) hformats
      obtain ⟨id, hid, name, hname, alternativeText, halternativeText, caption, hcaption, hash, hhash, ext,
        hext, mime, hmime, size, hsize, width, hwidth, height, hheight, url, hurl, provider, hprovider,
        createdAt, hcreatedAt, updatedAt, hupdatedAt, version, hversion, rfl⟩ := hrest
      exact {
        id := hid, name := hname, alternativeText := halternativeText, caption := hcaption, hash := hhash
        ext := hext, mime := hmime, size := hsize, width := hwidth, height := hheight, url := hurl
        provider := hprovider, createdAt := hcreatedAt, updatedAt := hupdatedAt, version := hversion
        thumbnail := (required_rendition_eq_ok_iff hstands (by decide)).mp
          (bind_eq_ok_iff.mpr ⟨w, hw, hthumbnail⟩)
        medium := (ofOptional_eq_ok_iff hstands (by decide)).mp hmedium
        small := (ofOptional_eq_ok_iff hstands (by decide)).mp hsmall }
    · intro hread
      -- The thumbnail's path leads through the object of the formats.
      obtain ⟨_, hthumbnail⟩ := exists_object_of_valueAt? hread.thumbnail.name
      rw [show ["formats", "thumbnail"] = ["formats"] ++ ["thumbnail"] from rfl] at hthumbnail
      obtain ⟨formats, hformats⟩ := exists_object_of_valueAt? hthumbnail
      have hobject : Scope.object ⟨"", members⟩ "formats" = .ok ⟨"formats", formats⟩ :=
        (object_eq_ok_iff h).mpr ⟨formats, hformats, rfl⟩
      have hstands := standsAt_of_object h (by decide) hobject
      obtain ⟨w, hw, hthumbnail⟩ := bind_eq_ok_iff.mp
        ((required_rendition_eq_ok_iff hstands (by decide)).mpr hread.thumbnail)
      exact ⟨_, hobject, w, hw, _, hthumbnail,
        _, (ofOptional_eq_ok_iff hstands (by decide)).mpr hread.medium,
        _, (ofOptional_eq_ok_iff hstands (by decide)).mpr hread.small,
        _, hread.id, _, hread.name, _, hread.alternativeText, _, hread.caption, _, hread.hash, _, hread.ext,
        _, hread.mime, _, hread.size, _, hread.width, _, hread.height, _, hread.url, _, hread.provider,
        _, hread.createdAt, _, hread.updatedAt, _, hread.version, rfl⟩
  | _ =>
    refine iff_of_false (by rintro ⟨⟩) fun hread => ?_
    cases hread.id

end ContentModel.Recognition

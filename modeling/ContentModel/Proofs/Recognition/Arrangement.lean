import ContentModel.Proofs.Keyed
import ContentModel.Proofs.Recognition.Assets
import Mathlib.Data.List.Find
import Mathlib.Data.List.Infix

/-
# What a media asset does not depend on

A media asset is read from some paths of a value, and of what stands there only texts, numbers and kinds
count.  So the members of the value, at any level, may stand in any order, and there may be any others.

Main statements: `media_congr` (what the result depends on), `Rearranged.agreeAt` (what moving and adding
members leaves alone) and `media_shape` (which values are media assets, and what is read of them).
-/

namespace ContentModel.Recognition

open ContentModel.Json (Value Members)

open Check

/-! ## Values that agree -/

/-- A value with nothing in it: what is told of an array or an object by its kind. -/
def shell : Value → Value
  | .array _ => .array []
  | .object _ => .object []
  | v => v

/-- The paths that a media asset is read from. -/
def mediaPaths : List (List String) :=
  ["formats"] :: (assetKeys.map fun key => [key.1]) ++
    renditionPaths.flatMap fun path => path :: renditionKeys.map fun key => path ++ [key.1]

/-- The paths of the renditions' keys are among them. -/
theorem append_mem_mediaPaths {path : List String} (hpath : path ∈ renditionPaths)
    {key : String × Expectation} (hkey : key ∈ renditionKeys) : path ++ [key.1] ∈ mediaPaths := by
  unfold mediaPaths
  refine List.mem_append_right _ (List.mem_flatMap.mpr ⟨path, hpath, ?_⟩)
  exact List.mem_cons_of_mem _ (List.mem_map.mpr ⟨key, hkey, rfl⟩)

/-- The checks of a media asset are made at these paths. -/
theorem path_mem_mediaPaths {c : Check} {v : Value} (h : c ∈ mediaChecks v) : c.path ∈ mediaPaths := by
  obtain rfl | ⟨path, hpath, h⟩ | h := mem_mediaChecks h
  · exact List.mem_cons_self
  · obtain rfl | h := List.mem_cons.mp h
    · exact List.mem_append_right _ (List.mem_flatMap.mpr ⟨path, hpath, List.mem_cons_self⟩)
    · obtain ⟨key, hkey, rfl⟩ := List.mem_map.mp h
      exact append_mem_mediaPaths hpath hkey
  · obtain ⟨key, hkey, rfl⟩ := List.mem_map.mp h
    exact List.mem_append_left _ (List.mem_cons_of_mem _ (List.mem_map.mpr ⟨key, hkey, rfl⟩))

/-- Two values are the same at a path, as far as a media asset is read from there. -/
def AgreeAt (path : List String) (v w : Value) : Prop :=
  (valueAt? path v).map shell = (valueAt? path w).map shell

/-- Two values are the same where a media asset is read from. -/
structure AgreeOnMedia (v w : Value) : Prop where
  root : AgreeAt [] v w
  paths : ∀ path ∈ mediaPaths, AgreeAt path v w

section Agreement

variable {v w : Value} {path : List String}

/-- A shell has the kind of its value. -/
theorem kind_shell (v : Value) : (shell v).kind = v.kind := by
  cases v <;> rfl

/-- A shell is expected exactly if its value is. -/
theorem accepts_shell (e : Expectation) (v : Value) : e.accepts (shell v) = e.accepts v := by
  cases v <;> cases e <;> rfl

/-- What is not null is so by its shell. -/
theorem map_shell_bind_nonNull? (value : Option Value) :
    (value.bind Value.nonNull?).map shell = (value.map shell).bind Value.nonNull? := by
  cases value with
  | none => rfl
  | some u => cases u <;> rfl

/-- Values that agree have the same found by a check. -/
theorem AgreeAt.found?_eq {c : Check} (h : AgreeAt c.path v w) :
    (c.found? v).map shell = (c.found? w).map shell := by
  unfold found?
  rw [map_shell_bind_nonNull?, map_shell_bind_nonNull?, h]

/-- Values that agree pass the same checks. -/
theorem AgreeAt.passes_eq {c : Check} (h : AgreeAt c.path v w) : c.passes v = c.passes w := by
  have hshell : ∀ value : Option Value, value.any c.expected.accepts =
      (value.map shell).any c.expected.accepts := by
    intro value
    cases value with
    | none => rfl
    | some u => exact (accepts_shell c.expected u).symm
  unfold passes
  rw [hshell (c.found? v), hshell (c.found? w), h.found?_eq]

/-- Values that agree are rejected alike. -/
theorem AgreeAt.rejection_eq {c : Check} (h : AgreeAt c.path v w) : c.rejection v = c.rejection w := by
  have hfound := h.found?_eq
  unfold rejection
  cases hv : c.found? v with
  | none =>
    rw [hv] at hfound
    rw [Option.map_eq_none_iff.mp hfound.symm]
  | some u =>
    rw [hv] at hfound
    obtain ⟨u', hw, hshell⟩ := Option.map_eq_some_iff.mp hfound.symm
    have hkind : u.kind = u'.kind := by
      rw [← kind_shell u, ← kind_shell u', hshell]
    rw [hw]
    dsimp only
    rw [hkind]

/-- Values that agree have the same text, or none. -/
theorem AgreeAt.textAt (h : AgreeAt path v w) {text : String} (hv : TextAt v path text) :
    TextAt w path text := by
  unfold AgreeAt at h
  rw [hv] at h
  obtain ⟨u, hu, hshell⟩ := Option.map_eq_some_iff.mp h.symm
  cases u <;> cases hshell
  exact hu

theorem AgreeAt.dateAt (h : AgreeAt path v w) {text : String} (hv : DateAt v path text) :
    DateAt w path text :=
  ⟨h.textAt hv.1, hv.2⟩

theorem AgreeAt.numberAt (h : AgreeAt path v w) {x : Binary64} (hv : NumberAt v path x) :
    NumberAt w path x := by
  obtain ⟨n, hn, hx⟩ := hv
  unfold AgreeAt at h
  rw [hn] at h
  obtain ⟨u, hu, hshell⟩ := Option.map_eq_some_iff.mp h.symm
  cases u <;> cases hshell
  exact ⟨n, hu, hx⟩

/-- Values that agree are both without anything but null at a path, or neither is. -/
theorem AgreeAt.absent (h : AgreeAt path v w) (hv : valueAt? path v = none ∨ valueAt? path v = some .null) :
    valueAt? path w = none ∨ valueAt? path w = some .null := by
  unfold AgreeAt at h
  rcases hv with hv | hv
  · rw [hv] at h
    exact .inl (Option.map_eq_none_iff.mp h.symm)
  · rw [hv] at h
    obtain ⟨u, hu, hshell⟩ := Option.map_eq_some_iff.mp h.symm
    cases u <;> cases hshell
    exact .inr hu

/-- What is read of a rendition, is read alike of values that agree. -/
theorem Rendition.ReadAt.of_agree {r : Rendition} (hread : r.ReadAt v path)
    (h : ∀ key ∈ renditionKeys, AgreeAt (path ++ [key.1]) v w) : r.ReadAt w path where
  name := (h ("name", .string) (by decide)).textAt hread.name
  hash := (h ("hash", .string) (by decide)).textAt hread.hash
  ext := (h ("ext", .string) (by decide)).textAt hread.ext
  mime := (h ("mime", .string) (by decide)).textAt hread.mime
  width := (h ("width", .number) (by decide)).numberAt hread.width
  height := (h ("height", .number) (by decide)).numberAt hread.height
  size := (h ("size", .number) (by decide)).numberAt hread.size
  url := (h ("url", .string) (by decide)).textAt hread.url

namespace AgreeOnMedia

/-- What is read of an optional rendition, is read alike of values that agree. -/
theorem optionalAt (h : AgreeOnMedia v w) (hpath : path ∈ renditionPaths) {r : Option Rendition}
    (hread : OptionalAt v path r) : OptionalAt w path r := by
  cases hread with
  | absent habsent =>
    have hmem : path ∈ mediaPaths := List.mem_append_right _
      (List.mem_flatMap.mpr ⟨path, hpath, List.mem_cons_self⟩)
    exact .absent ((h.paths path hmem).absent habsent)
  | rendition hread =>
    exact .rendition (hread.of_agree fun key hkey => h.paths _ (append_mem_mediaPaths hpath hkey))

/-- What is read of a media asset, is read alike of values that agree. -/
theorem readFrom (h : AgreeOnMedia v w) {asset : MediaAsset} (hread : asset.ReadFrom v) :
    asset.ReadFrom w where
  id := (h.paths _ (by decide)).textAt hread.id
  name := (h.paths _ (by decide)).textAt hread.name
  alternativeText := (h.paths _ (by decide)).textAt hread.alternativeText
  caption := (h.paths _ (by decide)).textAt hread.caption
  hash := (h.paths _ (by decide)).textAt hread.hash
  ext := (h.paths _ (by decide)).textAt hread.ext
  mime := (h.paths _ (by decide)).textAt hread.mime
  size := (h.paths _ (by decide)).numberAt hread.size
  width := (h.paths _ (by decide)).numberAt hread.width
  height := (h.paths _ (by decide)).numberAt hread.height
  url := (h.paths _ (by decide)).textAt hread.url
  provider := (h.paths _ (by decide)).textAt hread.provider
  createdAt := (h.paths _ (by decide)).dateAt hread.createdAt
  updatedAt := (h.paths _ (by decide)).dateAt hread.updatedAt
  version := (h.paths _ (by decide)).numberAt hread.version
  thumbnail := hread.thumbnail.of_agree fun key hkey =>
    h.paths _ (append_mem_mediaPaths (by decide) hkey)
  medium := h.optionalAt (by decide) hread.medium
  small := h.optionalAt (by decide) hread.small

/-- The checks of an optional rendition are made of both values or of neither. -/
theorem optionalChecks_eq (h : AgreeAt path v w) : optionalChecks v path = optionalChecks w path := by
  have hsome : ∀ u : Value, ((valueAt? path u).bind Value.nonNull?).isSome =
      (((valueAt? path u).map shell).bind Value.nonNull?).isSome := by
    intro u
    rw [← map_shell_bind_nonNull?, Option.isSome_map]
  unfold optionalChecks
  rw [hsome v, hsome w, h]

/-- Values that agree have the same first fault. -/
theorem firstFault_eq (h : AgreeOnMedia v w) :
    (firstFault? (mediaChecks v) v).map (rejection · v) =
      (firstFault? (mediaChecks w) w).map (rejection · w) := by
  have hchecks : mediaChecks v = mediaChecks w := by
    unfold mediaChecks
    rw [optionalChecks_eq (h.paths ["formats", "medium"] (by decide)),
      optionalChecks_eq (h.paths ["formats", "small"] (by decide))]
  have hpaths : ∀ c ∈ mediaChecks w, AgreeAt c.path v w := fun c hc => h.paths _ (path_mem_mediaPaths hc)
  have hfault : firstFault? (mediaChecks w) v = firstFault? (mediaChecks w) w :=
    List.find?_congr fun c hc => congrArg _ (hpaths c hc).passes_eq
  rw [hchecks, hfault]
  refine Option.map_congr fun c hc => ?_
  exact (hpaths c (List.mem_of_find?_eq_some hc)).rejection_eq

end AgreeOnMedia

/-- **What the result depends on.**  Values that agree where a media asset is read from are read alike, or
rejected alike. -/
theorem media_congr (h : AgreeOnMedia v w) : MediaAsset.ofValue v = MediaAsset.ofValue w := by
  cases hread : MediaAsset.ofValue v with
  | ok asset => exact (media_eq_ok_iff.mpr (h.readFrom (media_eq_ok_iff.mp hread))).symm
  | error r =>
    have hshell : shell v = shell w := Option.some.inj h.root
    cases v with
    | object members =>
      cases w with
      | object members' =>
        rw [follows_media members r, h.firstFault_eq, ← follows_media members' r] at hread
        exact hread.symm
      | _ => cases hshell
    | _ =>
      obtain rfl := Except.error.inj hread
      cases w <;> cases hshell
      rfl

end Agreement

/-! ## Order and other members -/

/-- One value, at a path, is another one with its members in another order, or with members more or less
that none of the given paths leads to; and so at any level of it.  What is in an array is left open. -/
inductive Rearranged (paths : List (List String)) : List String → Value → Value → Prop
  | refl (path : List String) (v : Value) : Rearranged paths path v v
  | order {path : List String} {members members' : Members} (h : members.Perm members')
      (hnodup : (members.map Prod.fst).Nodup) : Rearranged paths path (.object members) (.object members')
  | extra {path : List String} {key : String} (h : path ++ [key] ∉ paths) (before after : Members)
      (v : Value) :
      Rearranged paths path (.object (before ++ after)) (.object (before ++ (key, v) :: after))
  | inside {path : List String} {key : String} {v w : Value} (h : Rearranged paths (path ++ [key]) v w)
      (before after : Members) :
      Rearranged paths path (.object (before ++ (key, v) :: after)) (.object (before ++ (key, w) :: after))
  | items (path : List String) (items items' : List Value) :
      Rearranged paths path (.array items) (.array items')
  | symm {path : List String} {v w : Value} (h : Rearranged paths path v w) : Rearranged paths path w v
  | trans {path : List String} {u v w : Value} (h : Rearranged paths path u v)
      (h' : Rearranged paths path v w) : Rearranged paths path u w

/-- A path that leads somewhere a media asset is read from, leads through such places only. -/
theorem mem_mediaPaths_of_append {path rest : List String} {key : String}
    (h : path ++ key :: rest ∈ mediaPaths) : path ++ [key] ∈ mediaPaths := by
  have hclosed : ∀ whole ∈ mediaPaths, ∀ part ∈ whole.inits, part ≠ [] → part ∈ mediaPaths := by decide
  refine hclosed _ h _ ?_ (by simp)
  rw [List.mem_inits]
  exact ⟨rest, by simp⟩

/-- A path leads into an object by the member of its first key. -/
theorem valueAt?_cons_object (key : String) (rest : List String) (members : Members) :
    valueAt? (key :: rest) (.object members) = (Keyed.get? key members).bind (valueAt? rest) :=
  rfl

/-- Rearranged values agree at all paths that lead on to where a media asset is read from. -/
theorem Rearranged.agreeAt {path : List String} {v w : Value} (h : Rearranged mediaPaths path v w) :
    AgreeAt [] v w ∧ ∀ rest, path ++ rest ∈ mediaPaths → AgreeAt rest v w := by
  induction h with
  | refl path v => exact ⟨rfl, fun _ _ => rfl⟩
  | order hperm hnodup =>
    refine ⟨rfl, fun rest _ => ?_⟩
    cases rest with
    | nil => rfl
    | cons key rest =>
      unfold AgreeAt
      rw [valueAt?_cons_object, valueAt?_cons_object, Keyed.get?_perm hperm hnodup]
  | @extra path key hkey before after v =>
    refine ⟨rfl, fun rest hrest => ?_⟩
    cases rest with
    | nil => rfl
    | cons key' rest =>
      have hne : key ≠ key' := by
        rintro rfl
        exact hkey (mem_mediaPaths_of_append hrest)
      unfold AgreeAt
      rw [valueAt?_cons_object, valueAt?_cons_object, Keyed.get?_append, Keyed.get?_append,
        Keyed.get?_cons_of_ne hne]
  | @inside path key v w h before after ih =>
    refine ⟨rfl, fun rest hrest => ?_⟩
    cases rest with
    | nil => rfl
    | cons key' rest =>
      unfold AgreeAt
      rw [valueAt?_cons_object, valueAt?_cons_object, Keyed.get?_append, Keyed.get?_append]
      cases Keyed.get? key' before with
      | some u => rfl
      | none =>
        rw [Option.none_or, Option.none_or]
        by_cases hkey : key = key'
        · subst hkey
          rw [Keyed.get?_cons_self, Keyed.get?_cons_self]
          exact ih.2 rest (by simpa using hrest)
        · rw [Keyed.get?_cons_of_ne hkey, Keyed.get?_cons_of_ne hkey]
  | items path items items' =>
    refine ⟨rfl, fun rest hrest => ?_⟩
    cases rest <;> rfl
  | symm h ih => exact ⟨ih.1.symm, fun rest hrest => (ih.2 rest hrest).symm⟩
  | trans h h' ih ih' => exact ⟨ih.1.trans ih'.1, fun rest hrest => (ih.2 rest hrest).trans (ih'.2 rest hrest)⟩

/-- **Media assets.**  A value is read as a media asset exactly if it is one, and the asset holds what stands
under its keys.  Neither the order of members, at any level, nor other members than those a media asset is
read from change the result. -/
theorem media_shape (v : Value) :
    ((∃ asset, MediaAsset.ofValue v = .ok asset) ↔ IsMedia v) ∧
    (∀ asset, MediaAsset.ofValue v = .ok asset ↔ asset.ReadFrom v) ∧
    ∀ w, Rearranged mediaPaths [] v w → MediaAsset.ofValue w = MediaAsset.ofValue v := by
  refine ⟨exists_media_iff, fun asset => media_eq_ok_iff, fun w h => ?_⟩
  obtain ⟨hroot, hpaths⟩ := h.agreeAt
  exact (media_congr ⟨hroot, hpaths⟩).symm

/-- The members of a thumbnail. -/
def thumbnailMembers : Members := [
  ("name", .string "a"), ("hash", .string "h"), ("ext", .string ".png"), ("mime", .string "image/png"),
  ("width", .number (.integer 2)), ("height", .number (.integer 1)), ("size", .number (.integer 3)),
  ("url", .string "/a.png")]

/-- The members of a picture without its formats. -/
def pictureMembers : Members := thumbnailMembers ++ [
  ("id", .string "1"), ("alternativeText", .string ""), ("caption", .string ""), ("provider", .string "local"),
  ("createdAt", .string "2020-11-19"), ("updatedAt", .string "2020-11-19"), ("__v", .number (.integer 0))]

/-- A picture stays the same asset with its formats last, a note in the thumbnail and the thumbnail's members
the other way round. -/
theorem media_shape_picture :
    let thumbnail := Value.object thumbnailMembers
    let thumbnail' := Value.object (("note", .null) :: thumbnailMembers.reverse)
    let v := Value.object (("formats", .object [("thumbnail", thumbnail)]) :: pictureMembers)
    let w := Value.object (pictureMembers ++ [("formats", .object [("thumbnail", thumbnail')])])
    Rearranged mediaPaths [] v w ∧ MediaAsset.ofValue w = MediaAsset.ofValue v ∧
      ∃ asset, MediaAsset.ofValue w = .ok asset := by
  intro thumbnail thumbnail' v w
  have hthumbnail : Rearranged mediaPaths ["formats", "thumbnail"] thumbnail thumbnail' :=
    .trans (.order (List.reverse_perm thumbnailMembers).symm (by decide))
      (.extra (by decide) [] thumbnailMembers.reverse .null)
  have hformats : Rearranged mediaPaths ["formats"] (.object [("thumbnail", thumbnail)])
      (.object [("thumbnail", thumbnail')]) := .inside hthumbnail [] []
  have hlast : Rearranged mediaPaths [] v
      (.object (pictureMembers ++ [("formats", .object [("thumbnail", thumbnail)])])) :=
    .order (List.perm_append_singleton _ _).symm (by decide)
  have h : Rearranged mediaPaths [] v w := .trans hlast (.inside hformats pictureMembers [])
  exact ⟨h, (media_shape v).2.2 w h, _, rfl⟩

end ContentModel.Recognition

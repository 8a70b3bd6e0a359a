import ContentModel.Proofs.Schema.Names

/-
# Places in a schema

An edit finds a place by name and puts something else there: another element, or none.  Of several elements
of one name the first is meant, so a place is a split of a list whose first part does not have the name.  What
is put into a place has its name, if it has one at all, and therefore stays out of the way of other names.

Main statements: `splice_comm` and `Keyed.find?_splice_of_ne` (places of different names), `FirstAt.splice`
(a place from within), `Schema.setEntity_eq_mapFields` (what edits of a schema do) and
`Schema.spliceField_comm` (places of different fields).
-/

namespace ContentModel

/-! ## Splicing -/

/-- Puts several elements, or none, in the place of the first one of a name. -/
def splice {α : Type} (key : α → String) (k : String) (g : α → List α) : List α → List α
  | [] => []
  | x :: xs => if key x = k then g x ++ xs else x :: splice key k g xs

/-- The first element of a name, with what stands before it and after it. -/
structure FirstAt {α : Type} (key : α → String) (k : String) (xs before : List α) (x : α)
    (after : List α) : Prop where
  split : xs = before ++ x :: after
  name : key x = k
  first : k ∉ before.map key

section Splice

variable {α : Type} {key : α → String} {k k' : String} {g g' : α → List α} {xs : List α}

/-- What is put in the place of an element has the element's name. -/
def KeepsName (key : α → String) (g : α → List α) : Prop :=
  ∀ x, ∀ y ∈ g x, key y = key x

/-- Where a name does not occur, nothing is spliced. -/
theorem splice_of_notMem (h : k ∉ xs.map key) : splice key k g xs = xs := by
  induction xs with
  | nil => rfl
  | cons x xs ih =>
    rw [List.map_cons, List.mem_cons, not_or] at h
    rw [splice, if_neg (Ne.symm h.1), ih h.2]

/-- A splice at a name that the first part does not have is a splice of the second part. -/
theorem splice_append_of_notMem (h : k ∉ xs.map key) (ys : List α) :
    splice key k g (xs ++ ys) = xs ++ splice key k g ys := by
  induction xs with
  | nil => rfl
  | cons x xs ih =>
    rw [List.map_cons, List.mem_cons, not_or] at h
    rw [List.cons_append, splice, if_neg (Ne.symm h.1), ih h.2, List.cons_append]

/-- Only what is put in the place of the first element of the name matters. -/
theorem splice_congr (h : ∀ x, Keyed.find? key k xs = some x → g x = g' x) :
    splice key k g xs = splice key k g' xs := by
  induction xs with
  | nil => rfl
  | cons x xs ih =>
    by_cases hx : key x = k
    · rw [splice, splice, if_pos hx, if_pos hx, h x (by rw [Keyed.find?, if_pos hx])]
    · have hxs : ∀ y, Keyed.find? key k xs = some y → g y = g' y := by
        intro y hy
        exact h y (by rw [Keyed.find?, if_neg hx, hy])
      rw [splice, splice, if_neg hx, if_neg hx, ih hxs]

/-- An element that is put back changes nothing. -/
theorem splice_singleton_self : splice key k (fun x => [x]) xs = xs := by
  induction xs with
  | nil => rfl
  | cons x xs ih =>
    rw [splice, ih]
    split <;> rfl

/-- Replacing the first element of a name is a splice. -/
theorem replaceFirst_eq_splice (new : α) :
    replaceFirst (fun x => key x = k) new xs = splice key k (fun _ => [new]) xs := by
  induction xs with
  | nil => rfl
  | cons x xs ih =>
    by_cases hx : key x = k
    · simp [replaceFirst, splice, hx]
    · simp [replaceFirst, splice, hx, ih]

/-- Erasing the first element of a name is a splice. -/
theorem eraseP_eq_splice : xs.eraseP (fun x => key x = k) = splice key k (fun _ => []) xs := by
  induction xs with
  | nil => rfl
  | cons x xs ih =>
    by_cases hx : key x = k
    · simp [splice, hx]
    · simp [splice, hx, ih]

/-- **Different names.**  Splices at different names commute. -/
theorem splice_comm (hne : k ≠ k') (hg : KeepsName key g) (hg' : KeepsName key g') (xs : List α) :
    splice key k g (splice key k' g' xs) = splice key k' g' (splice key k g xs) := by
  -- What one splice puts into its place is passed over by the other.
  have hpass : ∀ {m n : String} {h : α → List α} {x : α}, KeepsName key h → key x = m → n ≠ m →
      n ∉ (h x).map key := by
    rintro m n h x hkeeps rfl hn hmem
    obtain ⟨y, hy, rfl⟩ := List.mem_map.mp hmem
    exact hn (hkeeps x y hy)
  induction xs with
  | nil => rfl
  | cons x xs ih =>
    by_cases hk : key x = k
    · have hk' : key x ≠ k' := fun h => hne (hk.symm.trans h)
      rw [splice, if_neg hk', splice, if_pos hk, splice, if_pos hk,
        splice_append_of_notMem (hpass hg hk (Ne.symm hne))]
    · by_cases hk' : key x = k'
      · rw [splice, if_pos hk', splice_append_of_notMem (hpass hg' hk' hne), splice, if_neg hk,
          splice, if_pos hk']
      · rw [splice, if_neg hk', splice, if_neg hk, splice, if_neg hk, splice, if_neg hk', ih]

/-- Two splices at one name, of which the first puts one element there. -/
theorem splice_splice (change : α → α) (hchange : ∀ x, key (change x) = key x) :
    splice key k g (splice key k (fun x => [change x]) xs) = splice key k (fun x => g (change x)) xs := by
  induction xs with
  | nil => rfl
  | cons x xs ih =>
    by_cases hx : key x = k
    · have hnew : key (change x) = k := (hchange x).trans hx
      rw [splice, if_pos hx, List.singleton_append, splice, if_pos hnew, splice, if_pos hx]
    · rw [splice, if_neg hx, splice, if_neg hx, splice, if_neg hx, ih]

/-- A splice leaves what other names show. -/
theorem Keyed.find?_splice_of_ne {n : String} (hn : n ≠ k) (hg : KeepsName key g) :
    Keyed.find? key n (splice key k g xs) = Keyed.find? key n xs := by
  have hpass : ∀ ys zs : List α, (∀ y ∈ ys, key y = k) →
      Keyed.find? key n (ys ++ zs) = Keyed.find? key n zs := by
    intro ys zs hys
    induction ys with
    | nil => rfl
    | cons y ys ih =>
      have hy : key y ≠ n := by
        rw [hys y List.mem_cons_self]
        exact Ne.symm hn
      rw [List.cons_append, Keyed.find?, if_neg hy]
      exact ih fun z hz => hys z (List.mem_cons_of_mem y hz)
  induction xs with
  | nil => rfl
  | cons x xs ih =>
    by_cases hx : key x = k
    · have hxn : key x ≠ n := fun h => hn (h.symm.trans hx)
      rw [splice, if_pos hx, Keyed.find?, if_neg hxn]
      exact hpass _ _ fun y hy => (hg x y hy).trans hx
    · rw [splice, if_neg hx, Keyed.find?, Keyed.find?, ih]

/-- A splice of one element shows it under the name. -/
theorem Keyed.find?_splice_singleton (change : α → α) (hchange : ∀ x, key (change x) = key x) :
    Keyed.find? key k (splice key k (fun x => [change x]) xs) = (Keyed.find? key k xs).map change := by
  induction xs with
  | nil => rfl
  | cons x xs ih =>
    by_cases hx : key x = k
    · have hnew : key (change x) = k := (hchange x).trans hx
      rw [splice, if_pos hx, List.singleton_append, Keyed.find?, if_pos hnew, Keyed.find?, if_pos hx,
        Option.map_some]
    · rw [splice, if_neg hx, Keyed.find?, if_neg hx, Keyed.find?, if_neg hx, ih]

/-- What a function takes an element and its replacement to alike, it takes the lists to. -/
theorem map_splice_singleton {β : Type} (f : α → β) (change : α → α)
    (h : ∀ x, Keyed.find? key k xs = some x → f (change x) = f x) :
    (splice key k (fun x => [change x]) xs).map f = xs.map f := by
  induction xs with
  | nil => rfl
  | cons x xs ih =>
    by_cases hx : key x = k
    · have hhead : f (change x) = f x := h x (by rw [Keyed.find?, if_pos hx])
      rw [splice, if_pos hx, List.singleton_append, List.map_cons, List.map_cons, hhead]
    · have hxs : ∀ y, Keyed.find? key k xs = some y → f (change y) = f y := by
        intro y hy
        exact h y (by rw [Keyed.find?, if_neg hx, hy])
      rw [splice, if_neg hx, List.map_cons, List.map_cons, ih hxs]

/-- A name shows an element exactly if that is the first one of the name. -/
theorem Keyed.find?_eq_some_iff_firstAt {x : α} :
    Keyed.find? key k xs = some x ↔ ∃ before after, FirstAt key k xs before x after := by
  rw [Keyed.find?_eq_find?, List.find?_eq_some_iff_append]
  simp only [decide_eq_true_eq, Bool.not_eq_true', decide_eq_false_iff_not]
  constructor
  · rintro ⟨hname, before, after, hsplit, hbefore⟩
    refine ⟨before, after, hsplit, hname, fun hmem => ?_⟩
    obtain ⟨y, hy, hyk⟩ := List.mem_map.mp hmem
    exact hbefore y hy hyk
  · rintro ⟨before, after, hsplit, hname, hfirst⟩
    refine ⟨hname, before, after, hsplit, fun y hy hyk => hfirst ?_⟩
    exact List.mem_map.mpr ⟨y, hy, hyk⟩

/-- **A place from within.**  A splice changes the place only, not what stands before it or after it. -/
theorem FirstAt.splice {before after : List α} {x : α} (h : FirstAt key k xs before x after) :
    ContentModel.splice key k g xs = before ++ (g x ++ after) := by
  rw [h.split, splice_append_of_notMem h.first, ContentModel.splice, if_pos h.name]

end Splice

/-! ## Places of schemas -/

namespace Schema

/-- Changes the fields of the first entity of a name. -/
def mapFields (entity : String) (change : List Field → List Field) (s : Schema) : Schema :=
  ⟨splice EntitySchema.name entity (fun e => [{ e with fields := change e.fields }]) s.entities⟩

/-- Puts several fields, or none, in the place of a field of an entity. -/
def spliceField (entity field : String) (g : Field → List Field) (s : Schema) : Schema :=
  s.mapFields entity (splice Field.name field g)

variable {s : Schema} {entity entity' : String} {change change' : List Field → List Field}

/-- Only the change of the entity's own fields matters. -/
theorem mapFields_congr (h : ∀ e, s.entity? entity = some e → change e.fields = change' e.fields) :
    s.mapFields entity change = s.mapFields entity change' := by
  rw [mapFields, mapFields]
  congr 1
  refine splice_congr fun e he => ?_
  rw [h e he]

/-- Fields that stay as they are leave the schema as it is. -/
theorem mapFields_eq_self (h : ∀ e, s.entity? entity = some e → change e.fields = e.fields) :
    s.mapFields entity change = s := by
  have hid : s.mapFields entity change = s.mapFields entity id := mapFields_congr h
  rw [hid]
  exact congrArg Schema.mk splice_singleton_self

/-- Changes of the fields of one entity, one after the other. -/
theorem mapFields_mapFields :
    (s.mapFields entity change').mapFields entity change =
      s.mapFields entity fun fields => change (change' fields) := by
  refine congrArg Schema.mk ?_
  exact splice_splice (fun e : EntitySchema => { e with fields := change' e.fields }) fun _ => rfl

/-- Changes of the fields of different entities commute. -/
theorem mapFields_comm (hne : entity ≠ entity') :
    (s.mapFields entity' change').mapFields entity change =
      (s.mapFields entity change).mapFields entity' change' := by
  have hkeeps : ∀ change : List Field → List Field, KeepsName EntitySchema.name
      fun e : EntitySchema => [{ e with fields := change e.fields }] := by
    intro change e e' he'
    rw [List.mem_singleton.mp he']
  exact congrArg Schema.mk (splice_comm hne (hkeeps change) (hkeeps change') s.entities)

/-- The entity whose fields are changed. -/
theorem entity?_mapFields :
    (s.mapFields entity change).entity? entity =
      (s.entity? entity).map fun e => { e with fields := change e.fields } :=
  Keyed.find?_splice_singleton (fun e : EntitySchema => { e with fields := change e.fields })
    fun _ => rfl

/-- The other entities are as they were. -/
theorem entity?_mapFields_of_ne (hne : entity' ≠ entity) :
    (s.mapFields entity change).entity? entity' = s.entity? entity' := by
  refine Keyed.find?_splice_of_ne hne fun e e' he' => ?_
  rw [List.mem_singleton.mp he']

/-- **Edits.**  An entity that is put in the place of one and differs in its fields only. -/
theorem setEntity_eq_mapFields {e : EntitySchema} (he : s.entity? entity = some e) :
    s.setEntity entity { e with fields := change e.fields } = s.mapFields entity change := by
  rw [setEntity, replaceFirst_eq_splice, mapFields]
  congr 1
  refine splice_congr fun e' he' => ?_
  rw [entity?, he', Option.some.injEq] at he
  rw [he]

/-- **Different fields.**  Splices at different fields commute, whether of one entity or of two. -/
theorem spliceField_comm {field field' : String} {g g' : Field → List Field}
    (hne : (entity, field) ≠ (entity', field')) (hg : KeepsName Field.name g)
    (hg' : KeepsName Field.name g') :
    (s.spliceField entity' field' g').spliceField entity field g =
      (s.spliceField entity field g).spliceField entity' field' g' := by
  by_cases hentity : entity = entity'
  · subst hentity
    have hfield : field ≠ field' := fun h => hne (by rw [h])
    rw [spliceField, spliceField, spliceField, spliceField, mapFields_mapFields, mapFields_mapFields]
    exact mapFields_congr fun e _ => splice_comm hfield hg hg' e.fields
  · exact mapFields_comm hentity

end Schema

end ContentModel

import ContentModel.Recognition.Type
import ContentModel.Schema.Basic
import ContentModel.Schema.Reserved

/-
# Observing the values of a field

The descriptor of a field is built up value by value.  What spans values is kept in a notebook, page by
page: the texts seen, and of a component the keys and how many of its values were seen.  A page is
headed by the name of a field, or by the names of a component and of its sub-field with a dot between
them.

An absent value and `null` are the same here.  Discovery of sub-fields goes one level deep.
-/

namespace ContentModel

open Recognition

/-! ## The notebook -/

/-- What is remembered of one field or sub-field. -/
structure Page where
  /-- The sub-fields discovered, in order. -/
  keys : List String
  /-- How many values were components. -/
  components : Nat
  /-- The texts seen, whatever the type of the field. -/
  texts : List String
  /-- Whether a text was seen twice. -/
  repeated : Bool
  deriving DecidableEq, Repr, Inhabited

/-- Nothing remembered. -/
def Page.blank : Page :=
  ⟨[], 0, [], false⟩

/-- The page with one more text. -/
def Page.noteText (s : String) (p : Page) : Page :=
  if s ∈ p.texts then { p with repeated := true } else { p with texts := s :: p.texts }

/-- The page with one more component, which has the given keys. -/
def Page.noteComponent (names : List String) (p : Page) : Page :=
  { p with keys := Keyed.extend p.keys names, components := p.components + 1 }

/-- The pages written so far. -/
structure Notebook where
  pages : List (String × Page)
  deriving DecidableEq, Repr, Inhabited

namespace Notebook

/-- The notebook without pages. -/
def empty : Notebook :=
  ⟨[]⟩

/-- The page under a heading. -/
def page (heading : String) (b : Notebook) : Page :=
  (Keyed.get? heading b.pages).getD .blank

/-- Rewrites the page under a heading. -/
def write (heading : String) (p : Page) (b : Notebook) : Notebook :=
  ⟨Keyed.put heading p b.pages⟩

/-- A page shows what was last written on it. -/
theorem page_write_self (heading : String) (p : Page) (b : Notebook) :
    (b.write heading p).page heading = p := by
  simp [page, write, Keyed.get?_put_self]

/-- Writing leaves all other pages as they were. -/
theorem page_write_of_ne {h heading : String} (ne : h ≠ heading) (p : Page) (b : Notebook) :
    (b.write heading p).page h = b.page h := by
  simp [page, write, Keyed.get?_put_of_ne ne]

end Notebook

/-! ## One value -/

namespace Field

/-- The descriptor after a value of some type.  When a field becomes textual, its uniqueness covers all
texts seen before; when it stops being a component, its sub-fields are dropped. -/
def retype (repeated : Bool) (observed : FieldType) (f : Field) : Field :=
  let merged := mergeType f.type observed
  if merged = f.type then f
  else
    { f with
      type := merged
      unique := if merged.isTextual && !f.type.isTextual then !repeated else f.unique
      subFields := if merged = .component then f.subFields else [] }

/-- The descriptor and the notebook after reading a value's text. -/
def observeText (heading : String) (v : Json.Value) (f : Field) (b : Notebook) : Field × Notebook :=
  match v with
  | .string s =>
    let page := b.page heading
    let unique :=
      if f.type.isTextual then mergeUnique f.unique (decide (s ∈ page.texts)) else f.unique
    ({ f with unique }, b.write heading (page.noteText s))
  | _ => (f, b)

/-- Observes a value without looking into components. -/
def observeFlat (heading name : String) (existing : Option Field) (value : Option Json.Value)
    (b : Notebook) : Field × Notebook :=
  match existing, value.bind Json.Value.nonNull? with
  | none, none => ({ Field.fresh name .nullish with required := false }, b)
  | none, some v => observeText heading v (Field.fresh name (classify v)) b
  | some f, none => ({ f with required := mergeRequired f.required false }, b)
  | some f, some v =>
    let observed := classifyGiven (some f.type) v
    observeText heading v (f.retype (b.page heading).repeated observed) b

/-! ## Components -/

/-- The heading of the page of a sub-field. -/
def subHeading (heading key : String) : String :=
  heading ++ "." ++ key

/-- Observes one sub-field of a component.  A sub-field discovered late is not required. -/
def observeKey (heading : String) (late : Bool) (members : Json.Members)
    (state : List Field × Notebook) (key : String) : List Field × Notebook :=
  let existing := Keyed.find? Field.name key state.1
  let (f, b) := observeFlat (subHeading heading key) key existing (Keyed.get? key members) state.2
  let f := if existing.isNone && late then { f with required := false } else f
  (Keyed.upsert Field.name f state.1, b)

/-- Observes all known sub-fields of a component, after adding its own keys to them. -/
def observeComponent (reserved : Reserved) (heading : String) (members : Json.Members) (f : Field)
    (b : Notebook) : Field × Notebook :=
  let names := (members.map Prod.fst).filter fun n => !reserved.hasSubField n
  let before := b.page heading
  let page := before.noteComponent names
  let late := decide (0 < before.components)
  let (subFields, b) :=
    page.keys.foldl (observeKey heading late members) (f.subFields, b.write heading page)
  ({ f with subFields }, b)

/-- Observes a value of the field `name`, whose descriptor so far is `existing`. -/
def observe (reserved : Reserved) (name : String) (existing : Option Field)
    (value : Option Json.Value) (b : Notebook) : Field × Notebook :=
  let (f, b) := observeFlat name name existing value b
  match value with
  | some (.object members) =>
    let observed := classifyGiven (existing.map Field.type) (.object members)
    if f.type = .component ∧ observed = .component then
      observeComponent reserved name members f b
    else (f, b)
  | _ => (f, b)

end Field

end ContentModel

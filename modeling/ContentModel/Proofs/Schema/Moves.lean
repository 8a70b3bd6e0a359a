import Mathlib.Data.List.InsertIdx
import Mathlib.Data.List.Perm.Basic
import Mathlib.Data.Multiset.Defs
import ContentModel.Proofs.Schema.Edits
import ContentModel.Proofs.Schema.Places

/-
# Moving fields

A move takes an element out of a list and puts it back at another index, which is its index in the list that
comes out.  Taking it out from there and putting it back where it came from gives the first list again.

Main statements: `moved_moveAt` and `moveAt_moveAt` (one move of a list), `Schema.reorder_cases` (all that a move
can do to a schema), `Schema.contents_run_move` (what it leaves of the entities) and `Schema.reorder_invertible`.
-/

namespace ContentModel

/-! ## Lists -/

/-- An element has been moved within a list. -/
structure Moved {α : Type} (source destination : Nat) (xs ys : List α) : Prop where
  perm : ys.Perm xs
  /-- The element stands at its new index. -/
  stands : ys[destination]? = xs[source]?
  /-- Without the element the lists are the same, also in order. -/
  others : ys.eraseIdx destination = xs.eraseIdx source

section Lists

variable {α : Type} {xs : List α} {source destination : Nat}

/-- A move from an index of the list. -/
theorem moveAt_eq (hs : source < xs.length) :
    moveAt source destination xs = (xs.eraseIdx source).insertIdx destination xs[source] := by
  rw [moveAt, List.getElem?_eq_getElem hs]

/-- An index of the list is an index for a move within it. -/
theorem le_length_eraseIdx (hs : source < xs.length) (hd : destination < xs.length) :
    destination ≤ (xs.eraseIdx source).length := by
  rw [List.length_eraseIdx_of_lt hs]
  omega

/-- **One move.**  The element stands at its destination, among the others in their order. -/
theorem moved_moveAt (hs : source < xs.length) (hd : destination < xs.length) :
    Moved source destination xs (moveAt source destination xs) := by
  have hle := le_length_eraseIdx hs hd
  rw [moveAt_eq hs]
  refine ⟨?_, ?_, ?_⟩
  · exact (List.perm_insertIdx xs[source] (xs.eraseIdx source) hle).trans
      (List.getElem_cons_eraseIdx_perm hs)
  · rw [List.getElem?_insertIdx_self, if_pos hle, List.getElem?_eq_getElem hs]
  · rw [List.eraseIdx_insertIdx_self]

/-- Inserting an element after the first part of a list. -/
theorem insertIdx_length (before after : List α) (x : α) :
    (before ++ after).insertIdx before.length x = before ++ x :: after := by
  induction before with
  | nil => rfl
  | cons y before ih => rw [List.cons_append, List.length_cons, List.insertIdx_succ_cons, ih]; rfl

/-- A move from within: the other elements are cut in two at the source, and elsewhere at the destination. -/
theorem exists_split_moveAt (hs : source < xs.length) (hd : destination < xs.length) :
    ∃ before x after before' after', xs = before ++ x :: after ∧ before.length = source ∧
      before ++ after = before' ++ after' ∧ before'.length = destination ∧
      moveAt source destination xs = before' ++ x :: after' := by
  have hothers : xs.eraseIdx source = xs.take source ++ xs.drop (source + 1) :=
    List.eraseIdx_eq_take_drop_succ xs source
  have hcut := List.take_append_drop destination (xs.eraseIdx source)
  have hlength : ((xs.eraseIdx source).take destination).length = destination := by
    rw [List.length_take, Nat.min_eq_left (le_length_eraseIdx hs hd)]
  refine ⟨xs.take source, xs[source], xs.drop (source + 1), (xs.eraseIdx source).take destination,
    (xs.eraseIdx source).drop destination, ?_, ?_, ?_, hlength, ?_⟩
  · rw [← List.drop_eq_getElem_cons hs, List.take_append_drop]
  · rw [List.length_take, Nat.min_eq_left (Nat.le_of_lt hs)]
  · rw [hcut, hothers]
  · have hinsert := insertIdx_length ((xs.eraseIdx source).take destination)
      ((xs.eraseIdx source).drop destination) xs[source]
    rw [hcut, hlength] at hinsert
    rw [moveAt_eq hs, hinsert]

/-- **A move back.**  It gives the first list again. -/
theorem moveAt_moveAt (hs : source < xs.length) (hd : destination < xs.length) :
    moveAt destination source (moveAt source destination xs) = xs := by
  -- Both moves take the same element out and leave the same others, so the second puts back what was there.
  have hmoved := moved_moveAt hs hd
  have hlength : destination < (moveAt source destination xs).length := by
    rw [hmoved.perm.length_eq]
    exact hd
  have hback : (moveAt source destination xs)[destination] = xs[source] := by
    have hstands := hmoved.stands
    rw [List.getElem?_eq_getElem hlength, List.getElem?_eq_getElem hs] at hstands
    exact Option.some.inj hstands
  rw [moveAt_eq hlength, hmoved.others, hback, List.insertIdx_eraseIdx_getElem hs]

end Lists

/-! ## Schemas -/

/-- A call that moves a field of an entity. -/
structure Move where
  entity : String
  source : Nat
  destination : Option Nat

/-- The edit that a move is. -/
def Move.edit (m : Move) : Edit :=
  .reorder m.entity m.source m.destination

namespace Schema

variable {s : Schema} {entity : String} {e : EntitySchema} {source : Nat}

/-- No field of a missing entity can be moved. -/
theorem reorder_of_missing (he : s.entity? entity = none) (destination : Option Nat) :
    s.reorder entity source destination = .error (.entityNotFound entity) := by
  rw [reorder, needEntity, he]
  rfl

/-- Nothing moves without a destination, to the place where it stands, or from or to a place past the
end. -/
theorem reorder_of_stays (he : s.entity? entity = some e) {destination : Option Nat}
    (h : ¬ ∃ d, destination = some d ∧ source ≠ d ∧ source < e.fields.length ∧ d < e.fields.length) :
    s.reorder entity source destination = .ok (false, s) := by
  rw [reorder, needEntity, he]
  cases destination with
  | none => rfl
  | some d =>
    have hmove : ¬ (source ≠ d ∧ source < e.fields.length ∧ d < e.fields.length) :=
      fun hmove => h ⟨d, rfl, hmove⟩
    have hstay : source = d ∨ e.fields.length ≤ source ∨ e.fields.length ≤ d := by omega
    show (if _ then _ else _) = _
    rw [if_pos hstay]

/-- Any other move changes the fields of the entity. -/
theorem reorder_of_moves (he : s.entity? entity = some e) {d : Nat} (hne : source ≠ d)
    (hs : source < e.fields.length) (hd : d < e.fields.length) :
    s.reorder entity source (some d) = .ok (true, s.mapFields entity (moveAt source d)) := by
  have hmove : ¬ (source = d ∨ e.fields.length ≤ source ∨ e.fields.length ≤ d) := by omega
  rw [reorder, needEntity, he, ← setEntity_eq_mapFields he]
  show (if _ then _ else _) = _
  rw [if_neg hmove]

/-- **Cases.**  A move of a field of an entity that is there leads from one index of its fields to another, or
does nothing. -/
theorem reorder_cases (he : s.entity? entity = some e) (source : Nat) (destination : Option Nat) :
    (∃ d, destination = some d ∧ (source ≠ d ∧ source < e.fields.length ∧ d < e.fields.length) ∧
        s.reorder entity source destination = .ok (true, s.mapFields entity (moveAt source d))) ∨
      (¬ ∃ d, destination = some d ∧ source ≠ d ∧ source < e.fields.length ∧ d < e.fields.length) ∧
        s.reorder entity source destination = .ok (false, s) := by
  by_cases hmoves : ∃ d, destination = some d ∧ source ≠ d ∧ source < e.fields.length ∧
      d < e.fields.length
  · obtain ⟨d, rfl, hne, hs, hd⟩ := hmoves
    exact Or.inl ⟨d, rfl, ⟨hne, hs, hd⟩, reorder_of_moves he hne hs hd⟩
  · exact Or.inr ⟨hmoves, reorder_of_stays he hmoves⟩

/-- What a move of a field of an entity answers, and what it does to the schema. -/
structure Reordered (s : Schema) (entity : String) (e : EntitySchema) (source : Nat)
    (destination : Option Nat) (moved : Bool) (s' : Schema) : Prop where
  moved_iff : moved = true ↔
    ∃ d, destination = some d ∧ source ≠ d ∧ source < e.fields.length ∧ d < e.fields.length
  unmoved : moved = false → s' = s
  fields : ∀ d, moved = true → destination = some d →
    ∃ e', s'.entity? entity = some e' ∧ Moved source d e.fields e'.fields
  /-- The move back leads to the schema before. -/
  back : ∀ d, moved = true → destination = some d → s'.reorder entity d (some source) = .ok (true, s)

/-- **One move.**  A field of an entity that is there moves or stays, and can be moved back. -/
theorem exists_reordered (he : s.entity? entity = some e) (source : Nat) (destination : Option Nat) :
    ∃ moved s', s.reorder entity source destination = .ok (moved, s') ∧
      Reordered s entity e source destination moved s' := by
  obtain ⟨d, rfl, ⟨hne, hs, hd⟩, hreorder⟩ | ⟨hstays, hreorder⟩ := reorder_cases he source destination
  · have he' : (s.mapFields entity (moveAt source d)).entity? entity =
        some { e with fields := moveAt source d e.fields } := by
      rw [entity?_mapFields, he, Option.map_some]
    refine ⟨true, _, hreorder, ⟨?_, ?_, ?_, ?_⟩⟩
    · exact ⟨fun _ => ⟨d, rfl, hne, hs, hd⟩, fun _ => rfl⟩
    · exact fun h => absurd h Bool.noConfusion
    · rintro d' - hd'
      obtain rfl := Option.some.inj hd'
      exact ⟨_, he', moved_moveAt hs hd⟩
    · rintro d' - hd'
      obtain rfl := Option.some.inj hd'
      have hlength := (moved_moveAt hs hd).perm.length_eq
      rw [reorder_of_moves he' (Ne.symm hne) (hlength ▸ hd) (hlength ▸ hs), mapFields_mapFields]
      refine congrArg (fun s => Except.ok (true, s)) (mapFields_eq_self fun e' he' => ?_)
      obtain rfl := Option.some.inj (he.symm.trans he')
      exact moveAt_moveAt hs hd
  · refine ⟨false, s, hreorder, ⟨?_, fun _ => rfl, ?_, ?_⟩⟩
    · exact ⟨fun h => absurd h Bool.noConfusion, fun h => absurd h hstays⟩
    · exact fun d h => absurd h Bool.noConfusion
    · exact fun d h => absurd h Bool.noConfusion

/-! ## Runs of moves -/

/-- The entities in order, each with its name and its fields, of which the order is forgotten. -/
def contents (s : Schema) : List (String × Multiset Field) :=
  s.entities.map fun e => (e.name, ↑e.fields)

/-- **One step.**  A move leaves every entity its fields, also when it fails. -/
theorem contents_run_move (s : Schema) (m : Move) : (m.edit.run s).contents = s.contents := by
  rw [Move.edit, Edit.run]
  cases he : s.entity? m.entity with
  | none => rw [reorder_of_missing he]; rfl
  | some e =>
    obtain ⟨d, -, ⟨-, hs, hd⟩, hreorder⟩ | ⟨-, hreorder⟩ := reorder_cases he m.source m.destination
    · rw [hreorder]
      refine map_splice_singleton (fun e : EntitySchema => (e.name, (e.fields : Multiset Field)))
        (fun e => { e with fields := moveAt m.source d e.fields }) fun e' he' => ?_
      obtain rfl := Option.some.inj (he.symm.trans he')
      have hperm := (moved_moveAt hs hd).perm
      exact congrArg (Prod.mk e.name) (Multiset.coe_eq_coe.mpr hperm)
    · rw [hreorder]
      rfl

/-- **Several steps.**  A run of moves leaves every entity its fields. -/
theorem contents_foldl_run_moves (s : Schema) (moves : List Move) :
    ((moves.map Move.edit).foldl Edit.run s).contents = s.contents := by
  induction moves generalizing s with
  | nil => rfl
  | cons m moves ih =>
    rw [List.map_cons, List.foldl_cons, ih, contents_run_move]

/-- **Moves.**  A move of a field of an entity moves it exactly if there is a destination other than the
source and both are indices of fields; then the field stands at its destination, the others are as they were
in order, and the move back leads to the schema before.  A run of moves leaves every entity its fields. -/
theorem reorder_invertible (s : Schema) :
    (∀ entity e source destination, s.entity? entity = some e →
      ∃ moved s', s.reorder entity source destination = .ok (moved, s') ∧
        Reordered s entity e source destination moved s') ∧
      ∀ moves : List Move, ((moves.map Move.edit).foldl Edit.run s).contents = s.contents :=
  ⟨fun _ _ source destination he => exists_reordered he source destination,
    contents_foldl_run_moves s⟩

/-- The first of three fields moves to the end. -/
theorem reorder_invertible_pages :
    let title := Field.fresh "title" .string
    let body := Field.fresh "body" .richText
    let views := Field.fresh "views" .number
    let pages : EntitySchema := ⟨"pages", [title, body, views]⟩
    let s : Schema := ⟨[pages]⟩
    s.entity? "pages" = some pages ∧
      (∃ moved s', s.reorder "pages" 0 (some 2) = .ok (moved, s') ∧
        Reordered s "pages" pages 0 (some 2) moved s') ∧
      s.reorder "pages" 0 (some 2) = .ok (true, ⟨[⟨"pages", [body, views, title]⟩]⟩) := by
  intro title body views pages s
  have hpages : s.entity? "pages" = some pages := by decide
  exact ⟨hpages, (reorder_invertible s).1 "pages" pages 0 (some 2) hpages, rfl⟩

end Schema

end ContentModel

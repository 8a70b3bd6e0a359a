import ContentModel.Recognition.Shape
import Mathlib.Data.List.Basic

/-
# Checks in order

A shape is read key by key, and each read is a check of the value at one path.  The reads stop at the first
check that fails: its rejection is the outcome, and if no check fails there is none.  So a shape is given by
its list of checks, and every read, and every sequence of reads, follows such a list.

Main statements: `Follows.bind` (one read after another), `follows_read` (one key) and
`Follows.eq_error_iff` (the first fault).
-/

namespace ContentModel.Recognition

open ContentModel.Json (Value Members Kind)

/-! ## Paths -/

/-- The value at a path of keys. -/
def valueAt? : List String → Value → Option Value
  | [], v => some v
  | key :: path, v => (v.member? key).bind (valueAt? path)

/-- A path with one more key leads to a member of the value at the path. -/
theorem valueAt?_append (path : List String) (key : String) (v : Value) :
    valueAt? (path ++ [key]) v = (valueAt? path v).bind (Value.member? key) := by
  induction path generalizing v with
  | nil =>
    rw [List.nil_append, valueAt?, valueAt?, Option.bind_some]
    exact Option.bind_fun_some _
  | cons key' path ih =>
    rw [List.cons_append, valueAt?, valueAt?, Option.bind_assoc]
    exact Option.bind_congr fun w _ => ih w

/-- What is there is not null. -/
theorem bind_nonNull?_eq_some_iff {value : Option Value} {w : Value} :
    value.bind Value.nonNull? = some w ↔ value = some w ∧ w ≠ .null := by
  cases value with
  | none => simp
  | some u => cases u <;> cases w <;> simp [Value.nonNull?]

/-- What is not there is absent or null. -/
theorem bind_nonNull?_eq_none_iff {value : Option Value} :
    value.bind Value.nonNull? = none ↔ value = none ∨ value = some .null := by
  cases value with
  | none => simp
  | some u => cases u <;> simp [Value.nonNull?]

/-- A path as it is written, with dots. -/
def dotted (path : List String) : String :=
  ".".intercalate path

/-! ## Checks -/

/-- Whether a value is what is expected. -/
def Expectation.accepts : Expectation → Value → Bool
  | .string, .string _ => true
  | .number, .number _ => true
  | .date, .string t => isDateLike t
  | .object, .object _ => true
  | .stringOrNumber, .string _ => true
  | .stringOrNumber, .number _ => true
  | _, _ => false

/-- A check of the value at a path. -/
structure Check where
  path : List String
  expected : Expectation
  /-- Whether the rejection of a value of another kind leaves out the path. -/
  unnamed : Bool
  deriving DecidableEq, Repr

namespace Check

/-- The value that is checked, unless it is absent or null. -/
def found? (c : Check) (v : Value) : Option Value :=
  (valueAt? c.path v).bind Value.nonNull?

/-- Whether the check succeeds. -/
def passes (c : Check) (v : Value) : Bool :=
  (c.found? v).any c.expected.accepts

/-- The rejection of the check, if it fails. -/
def rejection (c : Check) (v : Value) : Rejection :=
  match c.found? v with
  | none => .missingKey (dotted c.path)
  | some w => if c.unnamed then .notAnObject w.kind else .wrongType (dotted c.path) c.expected w.kind

/-- The first of some checks that fails. -/
def firstFault? (cs : List Check) (v : Value) : Option Check :=
  cs.find? fun c => !c.passes v

end Check

open Check

/-- Reading a value follows a list of checks: it is rejected exactly as the first of them that fails says. -/
def Follows {α : Type} (v : Value) (read : Except Rejection α) (cs : List Check) : Prop :=
  ∀ r, read = .error r ↔ (firstFault? cs v).map (rejection · v) = some r

namespace Follows

variable {α β : Type} {v : Value} {read : Except Rejection α} {next : α → Except Rejection β}
  {c : Check} {cs ds : List Check}

/-- Where nothing is read, nothing is checked. -/
theorem ok (a : α) : Follows v (.ok a) [] :=
  fun _ => ⟨nofun, nofun⟩

/-- If the first check fails, nothing else matters. -/
theorem error (h : c.passes v = false) : Follows v (.error (c.rejection v) : Except Rejection α) (c :: cs) := by
  have hfault : firstFault? (c :: cs) v = some c := List.find?_cons_of_pos (by rw [h]; rfl)
  intro r
  rw [hfault, Option.map_some, Except.error.injEq, Option.some.injEq]

/-- A read that succeeds has passed all checks. -/
theorem firstFault?_eq_none {a : α} (h : Follows v (.ok a) cs) : firstFault? cs v = none := by
  cases hfault : firstFault? cs v with
  | none => rfl
  | some c => exact nomatch (h (c.rejection v)).mpr (by rw [hfault]; rfl)

/-- **One read after another.**  The checks of the second come after those of the first. -/
theorem bind (h : Follows v read cs) (hnext : ∀ a, read = .ok a → Follows v (next a) ds) :
    Follows v (read >>= next) (cs ++ ds) := by
  intro r
  rw [firstFault?, List.find?_append, ← firstFault?, ← firstFault?]
  cases read with
  -- The checks of a read that succeeds have passed, so those of the second decide.
  | ok a =>
    rw [h.firstFault?_eq_none, Option.none_or]
    exact hnext a rfl r
  | error r' =>
    obtain ⟨c, hfault, hc⟩ := Option.map_eq_some_iff.mp ((h r').mp rfl)
    rw [hfault, Option.some_or, Option.map_some, hc]
    exact ⟨fun herror => congrArg some (Except.error.inj herror),
      fun hr => congrArg Except.error (Option.some.inj hr)⟩

/-- A read of one key comes before the others. -/
theorem cons (h : Follows v read [c]) (hnext : ∀ a, read = .ok a → Follows v (next a) ds) :
    Follows v (read >>= next) (c :: ds) :=
  h.bind hnext

/-- A read with one check. -/
theorem singleton_iff :
    Follows v read [c] ↔ ∀ r, read = .error r ↔ c.passes v = false ∧ c.rejection v = r := by
  refine forall_congr' fun r => iff_congr Iff.rfl ?_
  rw [firstFault?, List.find?_singleton]
  cases c.passes v <;> simp

/-- What is made of the value read is not checked. -/
theorem map {f : α → β} (h : Follows v read cs) : Follows v (read.map f) cs := by
  intro r
  rw [← h r]
  cases read <;> simp [Except.map]

/-- **The first fault.**  A read is rejected exactly as one of its checks says that fails after others have
passed. -/
theorem eq_error_iff (h : Follows v read cs) {r : Rejection} :
    read = .error r ↔ ∃ before c after, cs = before ++ c :: after ∧
      (∀ b ∈ before, b.passes v = true) ∧ c.passes v = false ∧ c.rejection v = r := by
  rw [h r, Option.map_eq_some_iff]
  simp only [firstFault?, List.find?_eq_some_iff_append, Bool.not_eq_true', Bool.not_not]
  constructor
  · rintro ⟨c, ⟨hc, before, after, hsplit, hbefore⟩, hr⟩
    exact ⟨before, c, after, hsplit, hbefore, hc, hr⟩
  · rintro ⟨before, c, after, hsplit, hbefore, hc, hr⟩
    exact ⟨c, ⟨hc, before, after, hsplit, hbefore⟩, hr⟩

end Follows

/-! ## The keys of an object -/

/-- An object under check stands at a path of a value. -/
structure Scope.StandsAt (s : Scope) (v : Value) (path : List String) : Prop where
  value : valueAt? path v = some (.object s.members)
  written : s.path = dotted path
  root : s.path = "" ↔ path = []

section Keys

variable {α : Type} {s : Scope} {v : Value} {path : List String}

/-- The members of a whole object. -/
theorem standsAt_nil (members : Members) : Scope.StandsAt ⟨"", members⟩ (.object members) [] :=
  ⟨rfl, rfl, by simp⟩

/-- The path of a key is written with a dot before the key. -/
theorem pathOf_eq (h : s.StandsAt v path) (key : String) : s.pathOf key = dotted (path ++ [key]) := by
  rw [Scope.pathOf, dotted]
  by_cases hroot : path = []
  · rw [if_pos (h.root.mpr hroot), hroot, List.nil_append, String.intercalate_singleton]
  · rw [if_neg (hroot ∘ h.root.mp), h.written,
      String.intercalate_append_of_ne_nil hroot (List.cons_ne_nil _ _), String.intercalate_singleton]
    rfl

/-- The value of a key is the one at its path. -/
theorem optional?_eq (h : s.StandsAt v path) (key : String) :
    s.optional? key = (valueAt? (path ++ [key]) v).bind Value.nonNull? := by
  rw [Scope.optional?, valueAt?_append, h.value]
  rfl

/-- An object at a key stands at the path of that key. -/
theorem standsAt_append (h : s.StandsAt v path) {key : String} (hkey : key ≠ "") {members : Members}
    (hmembers : s.optional? key = some (.object members)) :
    Scope.StandsAt ⟨s.pathOf key, members⟩ v (path ++ [key]) := by
  refine ⟨?_, pathOf_eq h key, ?_⟩
  · rw [optional?_eq h] at hmembers
    exact (bind_nonNull?_eq_some_iff.mp hmembers).1
  -- The empty text stands for the whole value, so no key may be written as it is.
  · refine iff_of_false (fun hempty => ?_) (List.append_ne_nil_of_right_ne_nil _ (List.cons_ne_nil _ _))
    dsimp only [Scope.pathOf] at hempty
    split at hempty
    · exact hkey hempty
    · simpa using congrArg String.toList hempty

/-- **One key.**  Reading a key that must be there is a check, whatever is expected of its value. -/
theorem follows_read (h : s.StandsAt v path) (key : String) (e : Expectation)
    {read : Value → Except Rejection α}
    (hread : ∀ w r, read w = .error r ↔ e.accepts w = false ∧ s.wrong key e w = r) :
    Follows v (s.required key >>= read) [⟨path ++ [key], e, false⟩] := by
  have hfound : found? ⟨path ++ [key], e, false⟩ v = s.optional? key := (optional?_eq h key).symm
  refine Follows.singleton_iff.mpr fun r => ?_
  rw [Scope.required, passes, Check.rejection, hfound, ← pathOf_eq h key]
  cases s.optional? key with
  | none => exact ⟨fun herror => ⟨rfl, Except.error.inj herror⟩, fun hr => congrArg Except.error hr.2⟩
  | some w => exact hread w r

/-- The text of a key. -/
theorem follows_string (h : s.StandsAt v path) (key : String) :
    Follows v (s.string key) [⟨path ++ [key], .string, false⟩] :=
  follows_read h key .string fun w r => by cases w <;> simp [Expectation.accepts]

/-- The number of a key. -/
theorem follows_number (h : s.StandsAt v path) (key : String) :
    Follows v (s.number key) [⟨path ++ [key], .number, false⟩] :=
  follows_read h key .number fun w r => by cases w <;> simp [Expectation.accepts]

/-- The date-like text of a key. -/
theorem follows_date (h : s.StandsAt v path) (key : String) :
    Follows v (s.date key) [⟨path ++ [key], .date, false⟩] :=
  follows_read h key .date fun w r => by
    cases w with
    | string t => cases hdate : isDateLike t <;> simp [Expectation.accepts, hdate]
    | _ => simp [Expectation.accepts]

/-- The object of a key. -/
theorem follows_object (h : s.StandsAt v path) (key : String) :
    Follows v (s.object key) [⟨path ++ [key], .object, false⟩] :=
  follows_read h key .object fun w r => by cases w <;> simp [Expectation.accepts]

/-- The object of a key stands at the path of the key. -/
theorem standsAt_of_object (h : s.StandsAt v path) {key : String} (hkey : key ≠ "") {s' : Scope}
    (hobject : s.object key = .ok s') : s'.StandsAt v (path ++ [key]) := by
  rw [Scope.object, Scope.required] at hobject
  cases hvalue : s.optional? key with
  | none => rw [hvalue] at hobject; cases hobject
  | some w =>
    rw [hvalue] at hobject
    cases w with
    | object members =>
      obtain rfl := Except.ok.inj hobject
      exact standsAt_append h hkey hvalue
    | _ => cases hobject

end Keys

end ContentModel.Recognition

/-
# Lists of named entries

An entry is put under its name: in the place of the older entry of that name if there is one, and
at the end otherwise.  Names therefore stand in the order in which they were first put, and each of
them shows what was put under it last.

Main statements: `find?_upsert_self` and `find?_upsert_of_ne` (what a name shows after a put),
`map_upsert` (where a put leaves the names).
-/

namespace ContentModel.Keyed

variable {α : Type} (name : α → String)

/-! ## Entries named by a function -/

/-- The first entry of the given name. -/
def find? (n : String) : List α → Option α
  | [] => none
  | x :: xs => if name x = n then some x else find? n xs

/-- Puts `x` under its name. -/
def upsert (x : α) : List α → List α
  | [] => [x]
  | y :: ys => if name y = name x then x :: ys else y :: upsert x ys

/-- After a put, its name shows the entry just put. -/
theorem find?_upsert_self (x : α) (xs : List α) :
    find? name (name x) (upsert name x xs) = some x := by
  induction xs with
  | nil => simp [upsert, find?]
  | cons y ys ih => by_cases h : name y = name x <;> simp [upsert, find?, h, ih]

/-- A put changes what its own name shows and nothing else. -/
theorem find?_upsert_of_ne (x : α) {n : String} (h : n ≠ name x) (xs : List α) :
    find? name n (upsert name x xs) = find? name n xs := by
  induction xs with
  | nil => simp [upsert, find?, Ne.symm h]
  | cons y ys ih =>
    by_cases hy : name y = name x
    · simp [upsert, find?, hy, Ne.symm h]
    · simp [upsert, find?, hy, ih]

/-- A put under a known name keeps the names, a put under a new one adds it at the end. -/
theorem map_upsert (x : α) (xs : List α) :
    (upsert name x xs).map name =
      if name x ∈ xs.map name then xs.map name else xs.map name ++ [name x] := by
  induction xs with
  | nil => simp [upsert]
  | cons y ys ih =>
    by_cases hy : name y = name x
    · simp [upsert, hy]
    · have hx : ¬ name x = name y := fun h => hy h.symm
      by_cases hm : name x ∈ ys.map name
      · simp only [upsert, hy, if_false, List.map_cons, ih, List.mem_cons, hx, false_or, if_pos hm]
      · simp only [upsert, hy, if_false, List.map_cons, ih, List.mem_cons, hx, false_or, if_neg hm,
          List.cons_append]

/-! ## Lists of names -/

/-- Adds to the known names, in order, those that are not yet there. -/
def extend (known new : List String) : List String :=
  new.foldl (fun names n => if n ∈ names then names else names ++ [n]) known

/-! ## Pairs of a name and a value -/

/-- The value under a name. -/
def get? {β : Type} (n : String) (entries : List (String × β)) : Option β :=
  (find? Prod.fst n entries).map Prod.snd

/-- Puts a value under a name. -/
def put {β : Type} (n : String) (v : β) (entries : List (String × β)) : List (String × β) :=
  upsert Prod.fst (n, v) entries

/-- Keeps each name at its first place, with the value given to it last. -/
def ofWrites {β : Type} (writes : List (String × β)) : List (String × β) :=
  writes.foldl (fun entries w => put w.1 w.2 entries) []

/-- After a put, its name shows the value just put. -/
theorem get?_put_self {β : Type} (n : String) (v : β) (entries : List (String × β)) :
    get? n (put n v entries) = some v := by
  simp only [get?, put, find?_upsert_self Prod.fst (n, v) entries, Option.map_some]

/-- A put changes what its own name shows and nothing else. -/
theorem get?_put_of_ne {β : Type} {m n : String} (h : m ≠ n) (v : β)
    (entries : List (String × β)) : get? m (put n v entries) = get? m entries := by
  simp only [get?, put, find?_upsert_of_ne Prod.fst (n, v) h entries]

end ContentModel.Keyed

/-
# Texts cut at a character
-/

namespace ContentModel.Text

/-- The parts of a text between the places where a character stands. -/
def splitOn (sep : Char) : List Char → List (List Char)
  | [] => [[]]
  | c :: cs =>
    if c = sep then [] :: splitOn sep cs
    else match splitOn sep cs with
      | [] => [[c]]
      | part :: parts => (c :: part) :: parts

/-- There is at least one part. -/
theorem splitOn_ne_nil (sep : Char) (cs : List Char) : splitOn sep cs ≠ [] := by
  induction cs with
  | nil => simp [splitOn]
  | cons c cs _ =>
    rw [splitOn]
    split
    · simp
    · split <;> simp

end ContentModel.Text

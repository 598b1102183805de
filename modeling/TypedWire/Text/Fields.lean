/-!
# Fields of a text

Text as fields between separators, and back. Splitting gives one field more than there are separators,
so it always gives one.
-/

namespace TypedWire.Text

def splitFields (sep : Char) : List Char → List (List Char)
  | [] => [[]]
  | c :: cs =>
    if c = sep then [] :: splitFields sep cs
    else
      match splitFields sep cs with
      | [] => [[c]]
      | field :: rest => (c :: field) :: rest

/-- The fields with a separator between each and the next. -/
def joinFields (sep : Char) : List (List Char) → List Char
  | [] => []
  | [field] => field
  | field :: rest => field ++ sep :: joinFields sep rest

theorem splitFields_ne_nil (sep : Char) (cs : List Char) : splitFields sep cs ≠ [] := by
  cases cs with
  | nil => simp [splitFields]
  | cons c cs =>
    simp only [splitFields]
    split
    · simp
    · split <;> simp

theorem joinFields_cons {sep : Char} {field : List Char} {rest : List (List Char)} (h : rest ≠ []) :
    joinFields sep (field :: rest) = field ++ sep :: joinFields sep rest := by
  cases rest with
  | nil => exact absurd rfl h
  | cons => rfl

end TypedWire.Text

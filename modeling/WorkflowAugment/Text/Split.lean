/-!
# Texts as lists of characters, cut at a character

Texts are worked on as lists of characters. `split` cuts one at every occurrence of a separator, and `join` glues pieces
together with the separator between them.
-/

namespace WorkflowAugment.Text

/-- The pieces between the occurrences of `c`: always one more than there are occurrences. -/
def split (c : Char) : List Char → List (List Char)
  | [] => [[]]
  | x :: xs =>
    if x = c then [] :: split c xs
    else match split c xs with
      | [] => [[x]]
      | p :: ps => (x :: p) :: ps

/-- The pieces with one `c` between each two neighbours. -/
def join (c : Char) : List (List Char) → List Char
  | [] => []
  | [p] => p
  | p :: q :: ps => p ++ c :: join c (q :: ps)

/-- A text has at least one piece. -/
theorem split_ne_nil (c : Char) (s : List Char) : split c s ≠ [] := by
  cases s with
  | nil => simp [split]
  | cons x xs =>
    unfold split
    split
    · simp
    · split <;> simp

end WorkflowAugment.Text

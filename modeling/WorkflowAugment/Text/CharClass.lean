/-!
# Classes of characters as tables

A class is given by the code points at which membership changes, in ascending order: the first is the first member, the
second the first non-member after it, and so on.
-/

namespace WorkflowAugment.Text

/-- Whether `n` lies in the class that changes at `bounds`: as many changes as are at most `n` have been passed. -/
def changesAt : List Nat → Nat → Bool
  | [], _ => false
  | b :: bs, n => if n < b then false else !changesAt bs n

end WorkflowAugment.Text

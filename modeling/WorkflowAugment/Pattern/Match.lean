import WorkflowAugment.Pattern.Basic

/-!
# Whether a text looks as a pattern says

A text is read character by character along threads, in order of preference. A thread is what remains to be read; it is
done if nothing remains. A thread that is done ends all threads behind it, so of the ways to match a start of the text
only those preferred to it are followed further: `a|ab` does not match `ab`.
-/

namespace WorkflowAugment.Pattern

/-- One step of what remains to be read. -/
inductive Step where
  | read (p : Pattern)
  /-- A pattern has just been read that may be read again. -/
  | again (greedy : Bool) (p : Pattern)
deriving DecidableEq

/-- What remains to be read, in order. -/
abbrev Thread : Type := List Step

/-- The threads that have been met at a place, and of them those that wait for a character or are done, the preferred
ones first. -/
structure Frontier where
  met : List Thread
  waiting : List Thread

namespace Frontier

/-- No thread at all. -/
def empty : Frontier := ⟨[], []⟩

/-- A thread that waits, behind the others. -/
def push (f : Frontier) (t : Thread) : Frontier := { f with waiting := f.waiting ++ [t] }

/-- A thread is followed up to where it waits for a character or is done, unless it has been met before at this place.
The first argument bounds the steps. -/
def follow (gap : Gap) : Nat → Thread → Frontier → Frontier
  | 0, _, f => f
  | n + 1, t, f =>
    if t ∈ f.met then f
    else
      let f := { f with met := t :: f.met }
      let prefer (first : Bool) (x y : Thread) : Frontier :=
        if first then follow gap n y (follow gap n x f) else follow gap n x (follow gap n y f)
      match t with
      | [] => f.push []
      | .read (.one s) :: k => f.push (.read (.one s) :: k)
      | .read .nothing :: k => follow gap n k f
      | .read (.place l) :: k => if l.holds gap then follow gap n k f else f
      | .read (.seq p q) :: k => follow gap n (.read p :: .read q :: k) f
      | .read (.either p q) :: k => prefer true (.read p :: k) (.read q :: k)
      | .read (.optional greedy p) :: k => prefer greedy (.read p :: k) k
      | .read (.repeated greedy p) :: k => follow gap n (.read p :: .again greedy p :: k) f
      | .again greedy p :: k => prefer greedy (.read p :: .again greedy p :: k) k

end Frontier

/-- The threads that wait at a place, when those given lead there. -/
def settle (bound : Nat) (gap : Gap) (ts : List Thread) : List Thread :=
  (ts.foldl (fun f t => Frontier.follow gap bound t f) Frontier.empty).waiting

/-- What remains of a thread behind a character. -/
def Thread.advance? (c : Char) : Thread → Option Thread
  | .read (.one s) :: k => if s.contains c then some k else none
  | _ => none

/-- The threads behind a character: those in front of the first that is done, as far as they take the character. -/
def advance (c : Char) (ts : List Thread) : List Thread := (ts.takeWhile (· ≠ [])).filterMap (Thread.advance? c)

/-- Some thread is done at the end of the text. -/
def finishes (bound : Nat) : Option Char → List Char → List Thread → Bool
  | before, [], ts => [] ∈ settle bound ⟨before, none⟩ ts
  | before, c :: s, ts => finishes bound (some c) s (advance c (settle bound ⟨before, some c⟩ ts))

/-- The whole text looks as the pattern says. A thread is a place in the pattern, in front of a step or behind a round of
a repetition, so there are not more threads than twice the size of the pattern and the one that is done. -/
def accepts (p : Pattern) (s : List Char) : Bool := finishes (2 * p.size + 2) none s [[.read p]]

end WorkflowAugment.Pattern

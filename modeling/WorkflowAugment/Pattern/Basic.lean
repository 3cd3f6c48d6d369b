/-!
# Patterns

A pattern says what a text looks like: which characters it has in which order, and what has to hold between two of them.
Where a pattern can go on in two ways, it says which one is preferred.
-/

namespace WorkflowAugment

/-- A set of characters, as it is written down. -/
inductive CharSet where
  | empty
  /-- The characters from the first to the last one. -/
  | range (first last : Char)
  /-- The characters of the set and those that differ from one of them in the case of an ASCII letter only. -/
  | anyCase (s : CharSet)
  | compl (s : CharSet)
  | union (s t : CharSet)
  | inter (s t : CharSet)
  | diff (s t : CharSet)
  | symmDiff (s t : CharSet)
deriving DecidableEq

namespace CharSet

/-- The character is in the set. -/
def contains : CharSet → Char → Bool
  | .empty, _ => false
  | .range first last, c => first ≤ c && c ≤ last
  | .anyCase s, c => s.contains c || s.contains c.toLower || s.contains c.toUpper
  | .compl s, c => !s.contains c
  | .union s t, c => s.contains c || t.contains c
  | .inter s t, c => s.contains c && t.contains c
  | .diff s t, c => s.contains c && !t.contains c
  | .symmDiff s t, c => s.contains c != t.contains c

/-- The set of one character. -/
def single (c : Char) : CharSet := .range c c

/-- The union of sets. -/
def unions : List CharSet → CharSet
  | [] => .empty
  | [s] => s
  | s :: ss => .union s (unions ss)

/-- The characters of several ranges. -/
def ofRanges (rs : List (Char × Char)) : CharSet := unions (rs.map fun r => .range r.1 r.2)

end CharSet

/-- A side of a word, or both, or none. -/
inductive WordEdge where
  | start
  | stop
  | either
  | neither
deriving DecidableEq

/-- What may be asked of the place between two characters. -/
inductive Place where
  | textStart
  | textEnd
  /-- The start of a line; with `crlf` a carriage return ends a line too, or the two together. -/
  | lineStart (crlf : Bool)
  | lineEnd (crlf : Bool)
  /-- The edge of a word of ASCII letters, digits and underscores. -/
  | word (edge : WordEdge)
deriving DecidableEq

/-- The place between two characters, of which one or both may be missing. -/
structure Gap where
  before : Option Char
  after : Option Char
deriving DecidableEq

namespace Place

/-- The character may stand in a word. -/
def isWordChar (c : Char) : Bool := c.isAlphanum || c = '_'

/-- The condition holds between the two characters. -/
def holds : Place → Gap → Bool
  | .textStart, g => g.before.isNone
  | .textEnd, g => g.after.isNone
  | .lineStart false, g => g.before.all (· = '\n')
  | .lineEnd false, g => g.after.all (· = '\n')
  | .lineStart true, g => g.before.all (· = '\n') || g.before = some '\r' && g.after ≠ some '\n'
  | .lineEnd true, g => g.after.all (· = '\r') || g.after = some '\n' && g.before ≠ some '\r'
  | .word edge, g =>
    let left := g.before.any isWordChar
    let right := g.after.any isWordChar
    match edge with
    | .start => !left && right
    | .stop => left && !right
    | .either => left != right
    | .neither => left == right

end Place

/-- What a text may look like. -/
inductive Pattern where
  /-- The empty text. -/
  | nothing
  /-- One character of the set. -/
  | one (s : CharSet)
  /-- The empty text, at such a place. -/
  | place (l : Place)
  | seq (p q : Pattern)
  /-- The first, or else the second. -/
  | either (p q : Pattern)
  /-- The pattern or nothing; if `greedy`, the pattern is preferred. -/
  | optional (greedy : Bool) (p : Pattern)
  /-- The pattern once or more often; if `greedy`, more often is preferred. -/
  | repeated (greedy : Bool) (p : Pattern)
deriving DecidableEq

namespace Pattern

/-- The number of constructors in the pattern. -/
def size : Pattern → Nat
  | .nothing => 1
  | .one _ => 1
  | .place _ => 1
  | .seq p q => p.size + q.size + 1
  | .either p q => p.size + q.size + 1
  | .optional _ p => p.size + 1
  | .repeated _ p => p.size + 1

/-- The pattern as often as wanted; if `greedy`, more often is preferred. -/
def many (greedy : Bool) (p : Pattern) : Pattern := .optional greedy (.repeated greedy p)

/-- The patterns one behind the other. -/
def sequence : List Pattern → Pattern
  | [] => .nothing
  | [p] => p
  | p :: ps => .seq p (sequence ps)

/-- One of the patterns, an earlier one preferred. -/
def choice : List Pattern → Pattern
  | [] => .nothing
  | [p] => p
  | p :: ps => .either p (choice ps)

end Pattern

end WorkflowAugment

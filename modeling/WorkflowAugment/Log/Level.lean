import WorkflowAugment.Text.Blank

/-!
# Levels of importance

A record has a level, and a limit says up to which level records are let through. Both have names.
-/

namespace WorkflowAugment

/-- How important a record is, the most important first. -/
inductive Level where
  | error
  | warn
  | info
  | debug
  | trace
deriving DecidableEq, Repr

namespace Level

/-- Position among the levels, counted from 1. -/
def rank : Level → Nat
  | .error => 1
  | .warn => 2
  | .info => 3
  | .debug => 4
  | .trace => 5

/-- The name of the level. -/
def name : Level → String
  | .error => "error"
  | .warn => "warn"
  | .info => "info"
  | .debug => "debug"
  | .trace => "trace"

/-- The levels from the most important on. -/
def all : List Level := [.error, .warn, .info, .debug, .trace]

end Level

/-- The least important level that is let through, or nothing at all. -/
abbrev Limit : Type := Option Level

namespace Limit

/-- How many levels are let through. -/
def rank (l : Limit) : Nat := l.elim 0 Level.rank

/-- The name of the limit. -/
def name (l : Limit) : String := l.elim "off" Level.name

/-- The limits from the strictest on. -/
def all : List Limit := none :: Level.all.map some

/-- Every level up to the limit is let through. -/
def admits (l : Limit) (level : Level) : Bool := level.rank ≤ l.rank

/-- The number that digits stand for, a plus in front allowed. -/
def number? (s : List Char) : Option Nat :=
  let ds := if s.head? = some '+' then s.drop 1 else s
  if ds ≠ [] ∧ ds.all Char.isDigit then some (ds.foldl (fun v c => v * 10 + (c.toNat - 48)) 0) else none

/-- The limit that a text names, in capitals or small letters or by its rank. -/
def ofText? (s : List Char) : Option Limit :=
  match number? s with
  | some n => all[n]?
  | none => all.find? fun l => Text.lowerAscii s = l.name.toList

end Limit

end WorkflowAugment

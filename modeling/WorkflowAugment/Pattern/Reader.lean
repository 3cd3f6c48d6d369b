import WorkflowAugment.Pattern.Bracket
import WorkflowAugment.Text.Alphabetic

/-!
# Reading patterns

A pattern is read from its text in one pass, with the groups that are open kept in a list. A repetition by numbers in
braces is not part of the texts that patterns are written in.
-/

namespace WorkflowAugment.Pattern

/-- Why a text is no pattern. -/
inductive ReadError where
  | malformed
  /-- The pattern asks for the edge of a word of letters of any script. -/
  | unicodeWord
deriving DecidableEq

/-- How deep the parts of a pattern may be nested. -/
def maxDepth : Nat := 250

/-- A part of a pattern. Letters that switch modes are a part too, which cannot be repeated. -/
structure Part extends Nested Pattern where
  repeatable : Bool

namespace Part

/-- A part with nothing in it. -/
def leaf (p : Pattern) : Part := ⟨⟨p, 0⟩, true⟩

/-- The parts, the last one first, as one; more than one are nested in a part of their own. -/
def joined (join : List Pattern → Pattern) : List Part → Nested Pattern
  | [p] => p.toNested
  | ps => ⟨join (ps.reverse.map (·.value)), if ps.isEmpty then 0 else Nested.deepest (ps.map (·.toNested)) + 1⟩

end Part

/-- A group that is open. -/
structure Group where
  /-- The modes around the group. -/
  outer : Modes
  /-- The alternatives before the one that is being read, the last one first. -/
  alternatives : List Part
  /-- The parts of the alternative that is being read, the last one first. -/
  parts : List Part

namespace Group

/-- A group in which nothing has been read yet. -/
def opened (outer : Modes) : Group := ⟨outer, [], []⟩

/-- The alternative that is being read. -/
def alternative (g : Group) : Part := ⟨Part.joined sequence g.parts, true⟩

/-- What has been read of the group. -/
def joined (g : Group) : Nested Pattern := Part.joined choice (g.alternative :: g.alternatives)

end Group

/-- A pattern as far as it has been read. -/
structure Reading where
  modes : Modes
  /-- The names of groups that have been met. -/
  names : List (List Char)
  /-- The edge of a word of letters of any script has been met. -/
  unicodeWord : Bool
  /-- The innermost group that is open, or the whole pattern. -/
  group : Group
  /-- The groups around it, from the inside. -/
  around : List Group

namespace Reading

/-- Nothing has been read yet. -/
def start : Reading := ⟨.standard, [], false, .opened .standard, []⟩

/-- One more part. -/
def push (r : Reading) (p : Part) : Reading := { r with group := { r.group with parts := p :: r.group.parts } }

/-- One more part with nothing in it. -/
def pushLeaf (r : Reading) (p : Pattern) : Reading := r.push (.leaf p)

/-- One more character of a set. -/
def pushOne (r : Reading) (s : CharSet) : Reading := r.pushLeaf (.one s)

/-- A character that stands for itself. One given as the value of an octet beyond ASCII takes the mode for Unicode. -/
def pushChar? (r : Reading) (c : Char) (octet : Bool) : Option Reading :=
  if !r.modes.unicode ∧ octet ∧ 0x80 ≤ c.toNat then none else (r.modes.written (.single c)).map r.pushOne

/-- What has been written with a backslash. -/
def pushEscape? (r : Reading) : Escape → Option Reading
  | .char c octet => r.pushChar? c octet
  | .set s => some (r.pushOne s)
  | .place l => some (r.pushLeaf (.place l))
  | .unicodeWord => some ({ r with unicodeWord := true }.pushLeaf .nothing)

/-- The last part is repeated. -/
def repeat? (r : Reading) (repetition : Pattern → Pattern) : Option Reading :=
  match r.group.parts with
  | [] => none
  | p :: ps =>
    if p.repeatable then
      some { r with group := { r.group with parts := ⟨⟨repetition p.value, p.depth + 1⟩, true⟩ :: ps } }
    else none

/-- The next alternative begins. -/
def alternate (r : Reading) : Reading :=
  { r with group := { r.group with alternatives := r.group.alternative :: r.group.alternatives, parts := [] } }

/-- A group begins, inside of which other modes may hold. -/
def enter (r : Reading) (m : Modes) : Reading :=
  { r with modes := m, group := .opened r.modes, around := r.group :: r.around }

/-- The innermost group ends. -/
def close? (r : Reading) : Option Reading :=
  match r.around with
  | [] => none
  | g :: gs =>
    let inner := r.group.joined
    some ({ r with modes := r.group.outer, group := g, around := gs }.push ⟨⟨inner.value, inner.depth + 1⟩, true⟩)

/-- The character may stand in the name of a group. -/
def isNameChar (first : Bool) (c : Char) : Bool :=
  c = '_' || if first then Text.isAlphabetic c else c = '.' || c = '[' || c = ']' || Text.isAlphanumeric c

/-- The name of a group, up to the mark that closes it, and a group begins. -/
def readName (r : Reading) (s : List Char) : Option (Reading × List Char) :=
  let name := s.takeWhile (· ≠ '>')
  match name, s.dropWhile (· ≠ '>') with
  | c :: cs, '>' :: s =>
    if isNameChar true c && cs.all (isNameChar false) && name ∉ r.names then
      some ({ r with names := name :: r.names }.enter r.modes, s)
    else none
  | _, _ => none

/-- What stands behind the bracket that opens a group. It may ask for a name or switch modes; with a closing bracket
behind the letters these modes hold for the rest of the group around it. -/
def readGroup (r : Reading) (s : List Char) : Option (Reading × List Char) :=
  match r.modes.skip s with
  | '?' :: '=' :: _ => none
  | '?' :: '!' :: _ => none
  | '?' :: '<' :: '=' :: _ => none
  | '?' :: '<' :: '!' :: _ => none
  | '?' :: 'P' :: '<' :: s => r.readName s
  | '?' :: '<' :: s => r.readName s
  | '?' :: s =>
    (r.modes.readSwitches true [] s).bind fun (m, letters, mark, s) =>
      if mark = ':' then some (r.enter m, s)
      else if letters.isEmpty then none
      else some ({ r with modes := m }.push ⟨⟨.nothing, 0⟩, false⟩, s)
  | s => some (r.enter r.modes, s)

/-- One repetition mark behind a part, and a question mark if one follows directly. -/
def readRepetition (r : Reading) (repetition : Bool → Pattern → Pattern) (s : List Char) :
    Option (Reading × List Char) :=
  let marked := s.head? = some '?'
  (r.repeat? (repetition (r.modes.greedy marked))).map fun r => (r, if marked then s.drop 1 else s)

/-- One step, given a character and the text behind it. -/
def step (r : Reading) (c : Char) (s : List Char) : Option (Reading × List Char) :=
  match c with
  | '(' => r.readGroup s
  | ')' => r.close?.map fun r => (r, s)
  | '|' => some (r.alternate, s)
  | '[' =>
    (Bracket.read r.modes s).map fun (set, s) => (r.push ⟨⟨.one set.value, set.depth⟩, true⟩, s)
  | '?' => r.readRepetition .optional s
  | '*' => r.readRepetition many s
  | '+' => r.readRepetition .repeated s
  | '{' => none
  | '\\' => (Escape.read r.modes s).bind fun (e, s) => (r.pushEscape? e).map fun r => (r, s)
  | '.' => r.modes.dot.map fun set => (r.pushOne set, s)
  | '^' => some (r.pushLeaf (.place r.modes.start), s)
  | '$' => some (r.pushLeaf (.place r.modes.stop), s)
  | c => (r.pushChar? c false).map fun r => (r, s)

/-- The pattern at the end of the text, where no group may be open. -/
def finish (r : Reading) : Except ReadError Pattern :=
  let p := r.group.joined
  if !r.around.isEmpty ∨ maxDepth < p.depth then .error .malformed
  else if r.unicodeWord then .error .unicodeWord
  else .ok p.value

/-- All steps. The first argument bounds them. -/
def run : Nat → Reading → List Char → Except ReadError Pattern
  | 0, _, _ => .error .malformed
  | n + 1, r, s =>
    match r.modes.skip s with
    | [] => r.finish
    | c :: s =>
      match r.step c s with
      | none => .error .malformed
      | some (r, s) => run n r s

end Reading

/-- The pattern that a text stands for. Every step takes a character. -/
def ofText (s : List Char) : Except ReadError Pattern := Reading.run (s.length + 1) .start s

end WorkflowAugment.Pattern

import WorkflowAugment.Pattern.Escape

/-!
# Sets in brackets

A set in brackets lists characters, ranges and sets, and may join such lists by operations, all of which bind alike and
are taken from the left.
-/

namespace WorkflowAugment.Pattern

/-- A part of a pattern and how deep it is nested. -/
structure Nested (α : Type) where
  value : α
  depth : Nat

/-- How deep the deepest of some parts is nested. -/
def Nested.deepest {α : Type} (ps : List (Nested α)) : Nat := ps.foldr (fun p d => max p.depth d) 0

/-- An operation on two sets. -/
inductive SetOperation where
  | inter
  | diff
  | symmDiff
deriving DecidableEq

/-- The set that the operation makes of two. -/
def SetOperation.apply : SetOperation → CharSet → CharSet → CharSet
  | .inter => .inter
  | .diff => .diff
  | .symmDiff => .symmDiff

/-- The operation that is written by doubling the character. -/
def SetOperation.ofMark? : Char → Option SetOperation
  | '&' => some .inter
  | '-' => some .diff
  | '~' => some .symmDiff
  | _ => none

/-- A set in brackets as far as it has been read. -/
structure Bracket where
  negated : Bool
  /-- Only dashes have been read behind the opening bracket. -/
  fresh : Bool
  /-- A set and the operation that joins it to what comes. -/
  pending : Option (Nested CharSet × SetOperation)
  /-- The list that is being read, the last item first. -/
  items : List (Nested CharSet)

namespace Bracket

/-- The bracket with one more item. -/
def push (b : Bracket) (s : Nested CharSet) : Bracket := { b with items := s :: b.items }

/-- The list that is being read as one set. -/
def listed (b : Bracket) : Nested CharSet :=
  match b.items with
  | [] => ⟨.empty, 0⟩
  | [s] => s
  | ss => ⟨.unions (ss.reverse.map (·.value)), Nested.deepest ss + 1⟩

/-- What has been read as one set. -/
def joined (b : Bracket) : Nested CharSet :=
  match b.pending with
  | none => b.listed
  | some (s, op) => ⟨op.apply s.value b.listed.value, max s.depth b.listed.depth + 1⟩

/-- The bracket behind the mark of an operation. -/
def operate (b : Bracket) (op : SetOperation) : Bracket := { b with pending := some (b.joined, op), items := [] }

/-- The set when the bracket is closed. -/
def close (m : Modes) (b : Bracket) : Option (Nested CharSet) :=
  (if b.negated then m.complement b.joined.value else some b.joined.value).map fun s => ⟨s, b.joined.depth + 1⟩

/-- A bracket that has just been opened, and the text behind. -/
def opened (m : Modes) (s : List Char) : Bracket × List Char :=
  match m.skip s with
  | '^' :: s => (⟨true, true, none, []⟩, s)
  | s => (⟨false, true, none, []⟩, s)

/-- A character of a set; beyond ASCII it takes the mode for Unicode. -/
def charItem (m : Modes) (c : Char) : Option (Nested CharSet) :=
  if !m.unicode ∧ 0x80 ≤ c.toNat then none else (m.written (.single c)).map fun s => ⟨s, 0⟩

/-- The characters from one to another. -/
def rangeItem (m : Modes) (c d : Char) : Option (Nested CharSet) :=
  if d < c ∨ !m.unicode ∧ 0x80 ≤ d.toNat then none else (m.written (.range c d)).map fun s => ⟨s, 0⟩

/-- A character or a set of its own, as an item. -/
def item (m : Modes) : Escape → Option (Nested CharSet)
  | .char c _ => charItem m c
  | .set s => some ⟨s, 0⟩
  | _ => none

/-- A character, a range or a set, and the text behind. A dash makes a range, of two characters, unless a closing
bracket or another dash follows. -/
def readItem (m : Modes) (s : List Char) : Option (Nested CharSet × List Char) := do
  let (first, s) ← Escape.readEither m s
  match m.skip s with
  | '-' :: t =>
    if m.glance t = some ']' ∨ m.glance t = some '-' then return (← item m first, '-' :: t)
    else
      match first, ← Escape.readEither m (m.skip t) with
      | .char c _, (.char d _, s) => return (← rangeItem m c d, s)
      | _, _ => none
  | s => return (← item m first, s)

/-- The rest of a set in brackets up to the bracket that closes it, with the brackets around it that are open too, and
the text behind. The first argument bounds the steps. -/
def readRest (m : Modes) : Nat → Bracket → List Bracket → List Char → Option (Nested CharSet × List Char)
  | 0, _, _, _ => none
  | n + 1, b, outer, s =>
    match m.skip s with
    | [] => none
    | c :: s =>
      if b.fresh ∧ c = '-' then (charItem m c).bind fun i => readRest m n (b.push i) outer s
      else if b.fresh ∧ b.items.isEmpty ∧ c = ']' then
        (charItem m c).bind fun i => readRest m n { b.push i with fresh := false } outer s
      else
        let b := { b with fresh := false }
        if c = '[' then
          match readNamedSet s with
          | some (negated, set, s) =>
            (m.signed negated set).bind fun set => readRest m n (b.push ⟨set, 0⟩) outer s
          | none => readRest m n (opened m s).1 (b :: outer) (opened m s).2
        else if c = ']' then
          (b.close m).bind fun set =>
            match outer with
            | [] => some (set, s)
            | o :: outer => readRest m n (o.push set) outer s
        else
          match if s.head? = some c then SetOperation.ofMark? c else none with
          | some op => readRest m n (b.operate op) outer (s.drop 1)
          | none => (readItem m (c :: s)).bind fun (i, s) => readRest m n (b.push i) outer s

/-- The set in brackets behind the opening one, and the text behind it. Every step takes a character. -/
def read (m : Modes) (s : List Char) : Option (Nested CharSet × List Char) :=
  readRest m (s.length + 1) (opened m s).1 [] (opened m s).2

end Bracket

end WorkflowAugment.Pattern

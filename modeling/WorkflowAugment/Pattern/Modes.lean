import WorkflowAugment.Pattern.Basic
import WorkflowAugment.Text.Blank

/-!
# Modes of a written pattern

Modes say how the text of a pattern is taken. They are switched by letters, for the rest of a group or for a group of
their own. The modes themselves also say what a character of the text stands for: letters of either case can be told to
be the same only in ASCII, and without the mode for Unicode nothing may match a character beyond ASCII unless it is
written down itself.
-/

namespace WorkflowAugment.Pattern

/-- How the text of a pattern is taken. -/
structure Modes where
  /-- The letters of either case are the same. -/
  ignoreCase : Bool
  /-- The marks for the start and the end stand for those of a line. -/
  multiLine : Bool
  /-- The dot matches the end of a line too. -/
  dotAll : Bool
  /-- Repetitions are greedy only if they are marked as not. -/
  swapGreed : Bool
  /-- Sets and cases are those of Unicode. -/
  unicode : Bool
  /-- A carriage return ends a line too. -/
  crlf : Bool
  /-- White space and comments mean nothing. -/
  spaced : Bool
deriving DecidableEq

namespace Modes

/-- The modes that a pattern starts with. -/
def standard : Modes := ⟨false, false, false, false, true, false, false⟩

/-- The mode of a letter is switched. -/
def switch? (m : Modes) (on : Bool) : Char → Option Modes
  | 'i' => some { m with ignoreCase := on }
  | 'm' => some { m with multiLine := on }
  | 's' => some { m with dotAll := on }
  | 'U' => some { m with swapGreed := on }
  | 'u' => some { m with unicode := on }
  | 'R' => some { m with crlf := on }
  | 'x' => some { m with spaced := on }
  | _ => none

/-- Letters that switch modes, up to a colon or a closing bracket: the modes then, the letters, the mark at the end and
the text behind it. One dash switches the letters behind it off, and no letter occurs twice. -/
def readSwitches (on : Bool) (met : List Char) (m : Modes) : List Char → Option (Modes × List Char × Char × List Char)
  | [] => none
  | c :: s =>
    if c = ':' ∨ c = ')' then if met.head? = some '-' then none else some (m, met, c, s)
    else if c ∈ met then none
    else if c = '-' then readSwitches false (c :: met) m s
    else (m.switch? on c).bind fun m => readSwitches on (c :: met) m s

/-- The text without the white space and the comments in front of it. -/
def skipComments (inComment : Bool) : List Char → List Char
  | [] => []
  | c :: s =>
    if inComment then skipComments (c ≠ '\n') s
    else if Text.isBlank c then skipComments false s
    else if c = '#' then skipComments true s
    else c :: s

/-- The text from where it means something. -/
def skip (m : Modes) (s : List Char) : List Char := if m.spaced then skipComments false s else s

/-- What decides whether a dash makes a range: the character behind it, or behind white space and one mark of a comment,
where these mean nothing. -/
def glance (m : Modes) (s : List Char) : Option Char :=
  if m.spaced then
    match Text.trimStart s with
    | '#' :: s => (Text.trimStart s).head?
    | s => s.head?
  else s.head?

/-- A set that is written down, with the cases taken as the mode says. -/
def written (m : Modes) (s : CharSet) : Option CharSet :=
  if m.ignoreCase then if m.unicode then none else some (.anyCase s) else some s

/-- The complement of a set; it has characters beyond ASCII, which takes the mode for Unicode. -/
def complement (m : Modes) (s : CharSet) : Option CharSet := if m.unicode then some (.compl s) else none

/-- A set that is written down, or its complement. -/
def signed (m : Modes) (negated : Bool) (s : CharSet) : Option CharSet :=
  (m.written s).bind fun s => if negated then m.complement s else some s

/-- What the dot stands for. -/
def dot (m : Modes) : Option CharSet :=
  m.complement (if m.dotAll then .empty else if m.crlf then .union (.single '\r') (.single '\n') else .single '\n')

/-- What the mark for the start stands for. -/
def start (m : Modes) : Place := if m.multiLine then .lineStart m.crlf else .textStart

/-- What the mark for the end stands for. -/
def stop (m : Modes) : Place := if m.multiLine then .lineEnd m.crlf else .textEnd

/-- Whether a repetition is greedy. -/
def greedy (m : Modes) (marked : Bool) : Bool := m.swapGreed == marked

end Modes

end WorkflowAugment.Pattern

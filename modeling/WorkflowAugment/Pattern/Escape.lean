import WorkflowAugment.Pattern.Modes
import WorkflowAugment.Text.Hex

/-!
# Escapes and named sets in a written pattern

What a backslash makes of the character behind it, and the sets that have names. Of sets, only those of ASCII are known;
what would need a table of Unicode cannot be written.
-/

namespace WorkflowAugment.Pattern

/-- The sets of ASCII by name. -/
def namedSets : List (String × CharSet) := [
  ("alnum", .ofRanges [('0', '9'), ('A', 'Z'), ('a', 'z')]),
  ("alpha", .ofRanges [('A', 'Z'), ('a', 'z')]),
  ("ascii", .range '\x00' '\x7f'),
  ("blank", .ofRanges [('\t', '\t'), (' ', ' ')]),
  ("cntrl", .ofRanges [('\x00', '\x1f'), ('\x7f', '\x7f')]),
  ("digit", .range '0' '9'),
  ("graph", .range '!' '~'),
  ("lower", .range 'a' 'z'),
  ("print", .range ' ' '~'),
  ("punct", .ofRanges [('!', '/'), (':', '@'), ('[', '\x60'), ('{', '~')]),
  ("space", .ofRanges [('\t', '\r'), (' ', ' ')]),
  ("upper", .range 'A' 'Z'),
  ("word", .ofRanges [('0', '9'), ('A', 'Z'), ('_', '_'), ('a', 'z')]),
  ("xdigit", .ofRanges [('0', '9'), ('A', 'F'), ('a', 'f')])]

/-- The set of ASCII that a name stands for. -/
def namedSet? (name : String) : Option CharSet := (namedSets.find? (·.1 = name)).map (·.2)

/-- A set in brackets of its own, given behind the first bracket, as in `:alpha:]` or `:^alpha:]`: whether it is negated,
the set, and the text behind it. -/
def readNamedSet (s : List Char) : Option (Bool × CharSet × List Char) :=
  match s with
  | ':' :: s =>
    let negated := s.head? = some '^'
    let s := if negated then s.drop 1 else s
    match s.dropWhile (· ≠ ':') with
    | ':' :: ']' :: rest =>
      (namedSet? (String.ofList (s.takeWhile (· ≠ ':')))).map fun set => (negated, set, rest)
    | _ => none
  | _ => none

/-- What may be written with a backslash, and characters written without one. -/
inductive Escape where
  /-- A character; `octet` says that it was given as the value of an octet. -/
  | char (c : Char) (octet : Bool)
  | set (s : CharSet)
  | place (l : Place)
  /-- The edge of a word of letters of any script. -/
  | unicodeWord
deriving DecidableEq

namespace Escape

/-- So many digits to the base 16. -/
def readDigits (m : Modes) : Nat → Nat → List Char → Option (Nat × List Char)
  | 0, v, s => some (v, s)
  | n + 1, v, s =>
    match m.skip s with
    | [] => none
    | c :: s => (Text.hexDigit? c).bind fun d => readDigits m n (v * 16 + d) s

/-- A character by its code point, in so many digits. -/
def readCode (m : Modes) (digits : Nat) (octet : Bool) (s : List Char) : Option (Escape × List Char) :=
  (readDigits m digits 0 s).bind fun (v, s) => if v.isValidChar then some (.char (Char.ofNat v) octet, s) else none

/-- The set of ASCII of a name, where sets need not be those of Unicode. -/
def ofName (m : Modes) (name : String) : Option Escape := if m.unicode then none else (namedSet? name).map .set

/-- The edge of a word. -/
def ofEdge (m : Modes) (edge : WordEdge) : Escape := if m.unicode then .unicodeWord else .place (.word edge)

/-- What a character behind a backslash stands for, unless more characters belong to it. The marks of ASCII stand for
themselves. -/
def ofChar (m : Modes) (c : Char) : Option Escape :=
  match c with
  | 'a' => some (.char '\x07' false)
  | 'f' => some (.char '\x0c' false)
  | 't' => some (.char '\t' false)
  | 'n' => some (.char '\n' false)
  | 'r' => some (.char '\r' false)
  | 'v' => some (.char '\x0b' false)
  | 'A' => some (.place .textStart)
  | 'z' => some (.place .textEnd)
  | 'b' => some (ofEdge m .either)
  | 'B' => some (ofEdge m .neither)
  | '<' => some (ofEdge m .start)
  | '>' => some (ofEdge m .stop)
  | 'd' => ofName m "digit"
  | 's' => ofName m "space"
  | 'w' => ofName m "word"
  | c => if c.isAlphanum ∨ 0x80 ≤ c.toNat then none else some (.char c false)

/-- The escape behind a backslash, and the text behind it. -/
def read (m : Modes) : List Char → Option (Escape × List Char)
  | [] => none
  | 'x' :: s => readCode m 2 true s
  | 'u' :: s => readCode m 4 false s
  | 'U' :: s => readCode m 8 false s
  | c :: s => (ofChar m c).map fun e => (e, s)

/-- A character that stands for itself, or an escape. -/
def readEither (m : Modes) : List Char → Option (Escape × List Char)
  | [] => none
  | '\\' :: s => read m s
  | c :: s => some (.char c false, s)

end Escape

end WorkflowAugment.Pattern

import WorkflowAugment.Json.Tree
import WorkflowAugment.Text.Hex
import WorkflowAugment.Text.Utf8

/-!
# Scanning JSON

`Tree.scan` takes a text apart into a tree and what follows it. Scanning never fails: where the text stops being JSON
the tree says so and nothing is left of the text.
-/

namespace WorkflowAugment.Tree

/-- White space between tokens. -/
def isSpace (c : Char) : Bool := c = ' ' || c = '\n' || c = '\r' || c = '\t'

/-- The text from its next token on. -/
def skipSpace (s : List Char) : List Char := s.dropWhile isSpace

/-- What is wrong where something else was to stand before `s`. -/
def faultAt (s : List Char) : Fault := if s = [] then .truncated else .malformed

/-- The character that a letter after a backslash stands for. -/
def shortEscape? (c : Char) : Option Char :=
  if c = '"' ∨ c = '\\' ∨ c = '/' then some c
  else if c = 'b' then some (Char.ofNat 8)
  else if c = 'f' then some (Char.ofNat 12)
  else if c = 'n' then some '\n'
  else if c = 'r' then some '\r'
  else if c = 't' then some '\t'
  else none

/-- What is wrong with a `\u` before fewer than four characters: whether the text ends is counted in octets. -/
def shortUnitFault (s : List Char) : Fault := if Text.Utf8.size s < 4 then .truncated else .malformed

/-- A string literal from behind its opening quote on: its pieces, what ends it other than a quote, and the rest. -/
def scanString : List Char → List Piece × Option Fault × List Char
  | [] => ([], some .truncated, [])
  | c :: s =>
    if c = '"' then ([], none, s)
    else if c = '\\' then
      match s with
      | [] => ([], some .truncated, [])
      | e :: s =>
        if e = 'u' then
          match s with
          | w :: x :: y :: z :: s =>
            match Text.hexQuad? w x y z with
            | some n =>
              let r := scanString s
              (.unit n :: r.1, r.2)
            | none => ([], some .malformed, [])
          | s => ([], some (shortUnitFault s), [])
        else
          match shortEscape? e with
          | some c =>
            let r := scanString s
            (.char c :: r.1, r.2)
          | none => ([], some .malformed, [])
    else if c.toNat < 0x20 then ([], some .malformed, [])
    else
      let r := scanString s
      (.char c :: r.1, r.2)

/-- A word that stands for `t`. -/
def scanWord (t : Tree) : List Char → List Char → Tree × List Char
  | [], s => (t, s)
  | _ :: _, [] => (.junk .truncated, [])
  | e :: es, c :: s => if c = e then scanWord t es s else (.junk .malformed, [])

/-- The digits at the start of a text and what follows them. -/
def scanDigits (s : List Char) : List Nat × List Char :=
  ((s.takeWhile Char.isDigit).map fun c => c.toNat - 48, s.dropWhile Char.isDigit)

/-- The value of digits to the base 10. -/
def digitsValue (ds : List Nat) : Nat := ds.foldl (fun v d => v * 10 + d) 0

/-- The digits behind a point, none if there is no point. -/
def scanFraction : List Char → Except Fault (List Nat × List Char)
  | '.' :: s =>
    let (ds, rest) := scanDigits s
    if ds = [] then .error (faultAt rest) else .ok (ds, rest)
  | s => .ok ([], s)

/-- The digits of an exponent and its sign. -/
def scanPower (s : List Char) : Except Fault (Int × List Char) :=
  let (isNegative, s) : Bool × List Char :=
    match s with
    | '+' :: s => (false, s)
    | '-' :: s => (true, s)
    | s => (false, s)
  let (ds, rest) := scanDigits s
  if ds = [] then .error (faultAt rest)
  else .ok (if isNegative then -(digitsValue ds : Int) else digitsValue ds, rest)

/-- The exponent of a number, if one follows. -/
def scanExponent : List Char → Except Fault (Option Int × List Char)
  | 'e' :: s => (scanPower s).map fun (e, rest) => (some e, rest)
  | 'E' :: s => (scanPower s).map fun (e, rest) => (some e, rest)
  | s => .ok (none, s)

/-- A number from its first digit on. A zero in front is alone before the point. -/
def scanMagnitude (isNegative : Bool) (s : List Char) : Except Fault (Numeral × List Char) := do
  let (whole, s) := scanDigits s
  if whole = [] then .error (faultAt s)
  else if whole.head? = some 0 ∧ whole.length ≠ 1 then .error .malformed
  else
    let (fraction, s) ← scanFraction s
    let (exponent, s) ← scanExponent s
    return (⟨isNegative, whole, fraction, exponent⟩, s)

/-- A number with its sign. -/
def scanNumber (s : List Char) : Tree × List Char :=
  let scanned :=
    match s with
    | '-' :: s => scanMagnitude true s
    | s => scanMagnitude false s
  match scanned with
  | .ok (n, rest) => (.number n, rest)
  | .error f => (.brokenNumber f, [])

mutual

/-- A value, with a budget for the recursion. -/
def scanValue : Nat → List Char → Tree × List Char
  | 0, _ => (.absent, [])
  | fuel + 1, s =>
    match skipSpace s with
    | [] => (.absent, [])
    | c :: s =>
      if c = '[' then
        match skipSpace s with
        | [] => (.array (.stop .truncated), [])
        | d :: s => if d = ']' then (.array .close, s) else
          let (items, rest) := scanItems fuel (d :: s)
          (.array items, rest)
      else if c = '{' then
        match skipSpace s with
        | [] => (.object (.stop .truncated), [])
        | d :: s => if d = '}' then (.object .close, s) else
          let (members, rest) := scanMembers fuel (d :: s)
          (.object members, rest)
      else if c = '"' then
        match scanString s with
        | (ps, none, rest) => (.string ps, rest)
        | (ps, some f, _) => (.brokenString ps f, [])
      else if c = 'n' then scanWord .null ['u', 'l', 'l'] s
      else if c = 't' then scanWord (.bool true) ['r', 'u', 'e'] s
      else if c = 'f' then scanWord (.bool false) ['a', 'l', 's', 'e'] s
      else if c = '-' ∨ c.isDigit then scanNumber (c :: s)
      else (.junk .malformed, [])

/-- The items of an array from the start of one on. -/
def scanItems : Nat → List Char → Items × List Char
  | 0, _ => (.stop .truncated, [])
  | fuel + 1, s =>
    let (head, rest) := scanValue fuel s
    match skipSpace rest with
    | [] => (.item head (.stop .truncated), [])
    | c :: rest =>
      if c = ']' then (.item head .close, rest)
      else if c = ',' then
        let (tail, rest) := scanItems fuel rest
        (.item head tail, rest)
      else (.item head (.stop .malformed), [])

/-- The members of an object from the start of a name on. -/
def scanMembers : Nat → List Char → Members × List Char
  | 0, _ => (.stop .truncated, [])
  | fuel + 1, s =>
    match skipSpace s with
    | [] => (.brokenName [] .truncated, [])
    | c :: s =>
      if c = '"' then
        match scanString s with
        | (name, some f, _) => (.brokenName name f, [])
        | (name, none, rest) =>
          match skipSpace rest with
          | [] => (.member name .absent .close, [])
          | c :: rest =>
            if c = ':' then
              let (value, rest) := scanValue fuel rest
              match skipSpace rest with
              | [] => (.member name value (.stop .truncated), [])
              | c :: rest =>
                if c = '}' then (.member name value .close, rest)
                else if c = ',' then
                  let (tail, rest) := scanMembers fuel rest
                  (.member name value tail, rest)
                else (.member name value (.stop .malformed), [])
            else (.member name (.junk .malformed) .close, [])
      else (.strayName (scanValue fuel (c :: s)).1, [])

end

/-- The value at the start of a text and what follows it. A level of nesting takes two steps of the recursion, and so
does an item or a member; each has a character of its own. -/
def scan (s : List Char) : Tree × List Char := scanValue (2 * s.length + 2) s

end WorkflowAugment.Tree

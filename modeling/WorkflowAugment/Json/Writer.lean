import WorkflowAugment.Json.Value
import WorkflowAugment.Text.Hex

/-!
# Writing JSON

The compact form has no white space at all. The pretty form has one item to a line, two spaces of indentation to a
level and a space after a colon; an empty array or object stays on one line.
-/

namespace WorkflowAugment.Json

/-- How one character stands in a JSON text: the quote, the backslash and the controls are escaped, all else is as is. -/
def escapedChar (c : Char) : List Char :=
  if c = '"' then ['\\', '"']
  else if c = '\\' then ['\\', '\\']
  else if c.toNat = 8 then ['\\', 'b']
  else if c.toNat = 9 then ['\\', 't']
  else if c.toNat = 10 then ['\\', 'n']
  else if c.toNat = 12 then ['\\', 'f']
  else if c.toNat = 13 then ['\\', 'r']
  else if c.toNat < 0x10 then '\\' :: 'u' :: '0' :: '0' :: '0' :: Text.hex c.toNat
  else if c.toNat < 0x20 then '\\' :: 'u' :: '0' :: '0' :: Text.hex c.toNat
  else [c]

/-- A text as a JSON string. -/
def renderString (s : String) : List Char := '"' :: s.toList.flatMap escapedChar ++ ['"']

/-- A truth value. -/
def renderBool (b : Bool) : List Char := if b then ['t', 'r', 'u', 'e'] else ['f', 'a', 'l', 's', 'e']

mutual

/-- The compact form. -/
def compact : Json → List Char
  | .null => ['n', 'u', 'l', 'l']
  | .bool b => renderBool b
  | .number n => n.render
  | .string s => renderString s
  | .array items => '[' :: compactItems items ++ [']']
  | .object members => '{' :: compactMembers members ++ ['}']

/-- The items of an array with commas between them. -/
def compactItems : List Json → List Char
  | [] => []
  | [x] => x.compact
  | x :: y :: xs => x.compact ++ ',' :: compactItems (y :: xs)

/-- The members of an object with commas between them. -/
def compactMembers : List (String × Json) → List Char
  | [] => []
  | [(k, x)] => renderString k ++ ':' :: x.compact
  | (k, x) :: m :: ms => renderString k ++ ':' :: x.compact ++ ',' :: compactMembers (m :: ms)

end

/-- The start of a line at a level. -/
def newline (level : Nat) : List Char := '\n' :: List.replicate (2 * level) ' '

mutual

/-- The pretty form of a value that stands at a level. -/
def prettyAt (level : Nat) : Json → List Char
  | .null => ['n', 'u', 'l', 'l']
  | .bool b => renderBool b
  | .number n => n.render
  | .string s => renderString s
  | .array [] => ['[', ']']
  | .array (x :: xs) => '[' :: prettyItems (level + 1) (x :: xs) ++ newline level ++ [']']
  | .object [] => ['{', '}']
  | .object (m :: ms) => '{' :: prettyMembers (level + 1) (m :: ms) ++ newline level ++ ['}']

/-- The items of an array, each on a line of its own. -/
def prettyItems (level : Nat) : List Json → List Char
  | [] => []
  | [x] => newline level ++ x.prettyAt level
  | x :: y :: xs => newline level ++ x.prettyAt level ++ ',' :: prettyItems level (y :: xs)

/-- The members of an object, each on a line of its own. -/
def prettyMembers (level : Nat) : List (String × Json) → List Char
  | [] => []
  | [(k, x)] => newline level ++ renderString k ++ ':' :: ' ' :: x.prettyAt level
  | (k, x) :: m :: ms =>
    newline level ++ renderString k ++ ':' :: ' ' :: x.prettyAt level ++ ',' :: prettyMembers level (m :: ms)

end

/-- The pretty form. -/
def pretty (x : Json) : List Char := x.prettyAt 0

/-- The text of a value in the compact or the pretty form. -/
def render (isPretty : Bool) (x : Json) : String :=
  String.ofList (if isPretty then x.pretty else x.compact)

end WorkflowAugment.Json

import WorkflowAugment.Log.Record
import WorkflowAugment.Pattern.Match
import WorkflowAugment.Pattern.Reader
import WorkflowAugment.Text.Split

/-!
# Tests of fields

A test asks for a field, and may ask for what its value is: a text that looks as a pattern says, or a number or a truth
value, which no text is.
-/

namespace WorkflowAugment

/-- What the value of a field is asked to be. -/
inductive ValueTest where
  /-- A number or a truth value. -/
  | scalar
  /-- A text that looks as the pattern says, which is given with the text it was read from. -/
  | pattern (text : List Char) (p : Pattern)
deriving DecidableEq

namespace ValueTest

/-- The text without one sign in front. -/
def unsigned : List Char → List Char
  | '+' :: s => s
  | '-' :: s => s
  | s => s

/-- The text is an exponent, or nothing at all. -/
def isExponent : List Char → Bool
  | [] => true
  | c :: s => (c = 'e' || c = 'E') && unsigned s ≠ [] && (unsigned s).all Char.isDigit

/-- The text is a number: digits with or without a point among or beside them and with or without an exponent, or a name
of what is infinite or no number; a sign may stand in front. -/
def isNumber (s : List Char) : Bool :=
  let s := unsigned s
  let whole := s.takeWhile Char.isDigit
  let rest := s.dropWhile Char.isDigit
  let (part, rest) := match rest with
    | '.' :: s => (s.takeWhile Char.isDigit, s.dropWhile Char.isDigit)
    | s => ([], s)
  String.ofList (Text.lowerAscii s) ∈ ["inf", "infinity", "nan"] || whole ++ part ≠ [] && isExponent rest

/-- The test that a text stands for. -/
def ofText (s : List Char) : Except Pattern.ReadError ValueTest :=
  if s = "true".toList ∨ s = "false".toList ∨ isNumber s then .ok .scalar else (Pattern.ofText s).map (.pattern s)

/-- The value is as asked. -/
def passes (v : FieldValue) : ValueTest → Bool
  | .scalar => false
  | .pattern _ p => v.text?.any fun s => p.accepts s.toList

end ValueTest

/-- What is asked of a field. -/
structure FieldTest where
  name : String
  value : Option ValueTest
deriving DecidableEq

namespace FieldTest

/-- The test that a text stands for: a name, or a name, a sign of equality and a value, which ends at the next such
sign. -/
def ofText (s : List Char) : Except Pattern.ReadError FieldTest :=
  match Text.split '=' s with
  | name :: value :: _ => (ValueTest.ofText value).map fun v => ⟨String.ofList name, some v⟩
  | _ => .ok ⟨String.ofList s, none⟩

/-- The span has a field as asked. -/
def passes (s : Span) (t : FieldTest) : Bool := (s.value? t.name).any fun v => t.value.all (·.passes v)

end FieldTest

end WorkflowAugment

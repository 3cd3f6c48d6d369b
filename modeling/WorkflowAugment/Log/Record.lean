import WorkflowAugment.Log.Level

/-!
# Log records

A record says what happened: a message, the part of the program it comes from, how important it is, and named fields. A
span is a stretch of the run that records fall into.
-/

namespace WorkflowAugment

/-- The value of a field. A text is quoted where it is shown, a display text is not. -/
inductive FieldValue where
  | text (s : String)
  | display (s : String)
  | count (n : Nat)
  | flag (b : Bool)
deriving DecidableEq

/-- The text that the value is, if it is one. -/
def FieldValue.text? : FieldValue → Option String
  | .text s => some s
  | .display s => some s
  | _ => none

/-- Something that happened. -/
structure Record where
  level : Level
  target : String
  message : String
  fields : List (String × FieldValue)
deriving DecidableEq

/-- The names of all that a record says: its message and its fields. -/
def Record.fieldNames (r : Record) : List String := "message" :: r.fields.map (·.1)

/-- A stretch of the run, with a name and fields. -/
structure Span where
  level : Level
  target : String
  name : String
  fields : List (String × FieldValue)
deriving DecidableEq

/-- The value of a field of the span. -/
def Span.value? (s : Span) (name : String) : Option FieldValue := (s.fields.find? (·.1 = name)).map (·.2)

end WorkflowAugment

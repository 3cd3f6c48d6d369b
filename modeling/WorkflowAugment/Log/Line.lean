import WorkflowAugment.Json.Writer
import WorkflowAugment.Log.Selection
import WorkflowAugment.Settings.Logging
import WorkflowAugment.Text.Quoted

/-!
# Lines of the log

A record becomes a line in one of three layouts. The text layout puts the span it falls into in front, the compact one
puts the fields of the span at the end, and the JSON layout is an object. No layout shows a time.
-/

namespace WorkflowAugment

/-- A record and the span that it falls into, if any. -/
structure LogEntry where
  span : Option Span
  record : Record

/-- The name of a level in a line. -/
def Level.label : Level → String
  | .error => "ERROR"
  | .warn => "WARN"
  | .info => "INFO"
  | .debug => "DEBUG"
  | .trace => "TRACE"

/-- The name of a level in five columns, to the right. -/
def Level.column (l : Level) : String :=
  String.ofList (List.replicate (5 - l.label.length) ' ') ++ l.label

/-- The value of a field in a line of text. -/
def FieldValue.inText : FieldValue → String
  | .text s => Text.quoted s
  | .display s => s
  | .count n => toString n
  | .flag b => if b then "true" else "false"

/-- The value of a field in a JSON object. -/
def FieldValue.inJson : FieldValue → List Char
  | .text s => Json.renderString s
  | .display s => Json.renderString s
  | .count n => Binary64.digits n
  | .flag b => Json.renderBool b

/-- Fields in a line of text, with a space between each two. -/
def fieldsInText (fields : List (String × FieldValue)) : String :=
  " ".intercalate (fields.map fun f => f.1 ++ "=" ++ f.2.inText)

/-- Members of a JSON object, each given with the text of its value. -/
def objectInJson (members : List (String × List Char)) : List Char :=
  '{' :: (List.intercalate [','] (members.map fun m => Json.renderString m.1 ++ ':' :: m.2)) ++ ['}']

namespace Record

/-- The message and the fields of a record. -/
def body (r : Record) : String :=
  if r.fields = [] then r.message else r.message ++ " " ++ fieldsInText r.fields

/-- The target in front of the message. -/
def targetLabel (withTargets : Bool) (r : Record) : String := if withTargets then r.target ++ ": " else ""

/-- The fields of a record as a JSON object, the message first. -/
def fieldsInJson (r : Record) : List Char :=
  objectInJson (("message", Json.renderString r.message) :: r.fields.map fun f => (f.1, f.2.inJson))

end Record

namespace Span

/-- The fields of the span by ascending name. -/
def sortedFields (s : Span) : List (String × FieldValue) := (Dict.ofList s.fields).entries

/-- The span as a JSON object: its fields by ascending name, then its own name. -/
def inJson (s : Span) : List Char :=
  objectInJson ((s.sortedFields.map fun f => (f.1, f.2.inJson)) ++ [("name", Json.renderString s.name)])

end Span

namespace LogEntry

/-- The line of the text layout. -/
def textLine (withTargets : Bool) (e : LogEntry) : String :=
  let span := e.span.elim "" fun s => s.name ++ "\x7b" ++ fieldsInText s.fields ++ "\x7d: "
  e.record.level.column ++ " " ++ span ++ e.record.targetLabel withTargets ++ e.record.body

/-- The line of the compact layout. -/
def compactLine (withTargets : Bool) (e : LogEntry) : String :=
  let span := e.span.elim "" fun s => s.name ++ ": "
  let spanFields := e.span.elim "" fun s => " " ++ fieldsInText s.fields
  e.record.level.column ++ " " ++ span ++ e.record.targetLabel withTargets ++ e.record.body ++ spanFields

/-- The line of the JSON layout. -/
def jsonLine (withTargets : Bool) (e : LogEntry) : String :=
  let target := if withTargets then [("target", Json.renderString e.record.target)] else []
  let spans := e.span.elim [] fun s => [("span", s.inJson), ("spans", '[' :: s.inJson ++ [']'])]
  String.ofList (objectInJson
    ([("level", Json.renderString e.record.level.label), ("fields", e.record.fieldsInJson)] ++ target ++ spans))

/-- The line of an entry. -/
def line (layout : LogLayout) (withTargets : Bool) (e : LogEntry) : String :=
  match layout with
  | .text => e.textLine withTargets
  | .compact => e.compactLine withTargets
  | .json => e.jsonLine withTargets

/-- The entry as a filter lets it through, which it may do for itself or because its span is open. The span is kept only
if it is open. -/
def filtered (f : Filter) (e : LogEntry) : Option LogEntry :=
  let span := e.span.filter f.opens
  if f.admitsRecord e.record || span.any fun s => (f.inside s).admits e.record.level then some { e with span } else none

end LogEntry

/-- The lines that the settings ask for. -/
def LogSettings.lines (s : LogSettings) (entries : List LogEntry) : List String :=
  (entries.filterMap (LogEntry.filtered s.level.filter)).map (LogEntry.line s.layout s.withTargets)

end WorkflowAugment

import WorkflowAugment.Json.Codec
import WorkflowAugment.Log.Filter
import WorkflowAugment.Settings.Environment

/-!
# How to log

The settings of the log: the layout of its lines and the filter of its records. A filter is kept as the text it was given
as, together with the directives that it stands for, so no filter that cannot be read ever gets into the settings.
-/

namespace WorkflowAugment

/-- The variable with the filter. -/
def logLevelVariable : String := "PIPEC_LOG_LEVEL"

/-- The variable with the layout. -/
def logFormatVariable : String := "PIPEC_LOG_FORMAT"

/-- The variable that, set to anything, asks for no colour. -/
def noColorVariable : String := "NO_COLOR"

/-- Why the settings of the log cannot be read. -/
inductive LogSettingsError where
  | format (raw : String)
  | level (raw : String) (cause : FilterError)
deriving DecidableEq

/-- The text of the error. -/
def LogSettingsError.message : LogSettingsError → String
  | .format raw => "invalid log format: " ++ raw ++ " (expected: text|compact|json)"
  | .level raw cause => "invalid log level: " ++ raw ++ ": " ++ cause.message

/-- The layout of a line of the log. -/
inductive LogLayout where
  | text
  | compact
  | json
deriving DecidableEq, Inhabited

namespace LogLayout

/-- The name of the layout. -/
def name : LogLayout → String
  | .text => "text"
  | .compact => "compact"
  | .json => "json"

/-- The layout that a text names, in capitals or small letters of ASCII and with white space around it. -/
def ofText (raw : String) : Except LogSettingsError LogLayout :=
  let s := String.ofList (Text.lowerAscii (Text.trim raw.toList))
  if s = "text" ∨ s = "pretty" then .ok .text
  else if s = "compact" then .ok .compact
  else if s = "json" then .ok .json
  else .error (.format raw)

/-- The complaint about a text that names no layout. -/
def complaint? (raw : String) : Option String :=
  match ofText raw with
  | .ok _ => none
  | .error e => some e.message

/-- The document of a layout. -/
def codec : Codec LogLayout where
  shape := .checked complaint?
  value
    | .string ps => (ofText (Tree.spelled ps)).toOption.getD .text
    | _ => .text
  write l := .string l.name

end LogLayout

/-- A filter with the text it was given as. -/
structure LogFilter where
  text : String
  filter : Filter
  reads : Filter.ofText text = .ok filter

namespace LogFilter

/-- A filter is told by its text. -/
@[ext] theorem ext {x y : LogFilter} (h : x.text = y.text) : x = y := by
  obtain ⟨s, f, hf⟩ := x
  obtain ⟨t, g, hg⟩ := y
  obtain rfl : s = t := h
  obtain rfl : f = g := Except.ok.inj (hf.symm.trans hg)
  rfl

/-- The filter that a text stands for. -/
def ofText (raw : String) : Except LogSettingsError LogFilter :=
  match h : Filter.ofText raw with
  | .ok f => .ok ⟨raw, f, h⟩
  | .error e => .error (.level raw e)

/-- The filter that lets records through up to the level of information. -/
def info : LogFilter := ⟨"info", [⟨none, none, none, some .info⟩], rfl⟩

instance : Inhabited LogFilter := ⟨info⟩

/-- The complaint about a text that is no filter. -/
def complaint? (raw : String) : Option String :=
  match ofText raw with
  | .ok _ => none
  | .error e => some e.message

/-- The document of a filter. -/
def codec : Codec LogFilter where
  shape := .checked complaint?
  value
    | .string ps => (ofText (Tree.spelled ps)).toOption.getD info
    | _ => info
  write l := .string l.text

end LogFilter

/-- The settings of the log. -/
structure LogSettings where
  layout : LogLayout
  level : LogFilter
  withTargets : Bool
  useColor : Bool

namespace LogSettings

/-- Text lines up to the level of information, with targets, in colour where that can be. -/
def standard : LogSettings := ⟨.text, .info, true, true⟩

instance : Inhabited LogSettings := ⟨standard⟩

/-- The settings in the environment; a variable that is unset or empty leaves the standard. The filter is looked at
first. -/
def ofEnvironment (env : Environment) : Except LogSettingsError LogSettings := do
  let level ← (env.nonempty? logLevelVariable).elim (.ok standard.level) LogFilter.ofText
  let layout ← (env.nonempty? logFormatVariable).elim (.ok standard.layout) LogLayout.ofText
  return { standard with level, layout, useColor := (env.nonempty? noColorVariable).isNone }

/-- The document of the settings. -/
def codec : Codec LogSettings :=
  .settings "LoggerConfig"
    (.field "format" (.default LogLayout.codec .text fun _ => false) <|
      .field "level" (.default LogFilter.codec .info fun _ => false) <|
      .field "with_targets" (.default .bool true fun _ => false) <|
      .field "use_color" (.default .bool true fun _ => false) .done)
    (fun (layout, level, withTargets, useColor, _) => ⟨layout, level, withTargets, useColor⟩)
    fun s => (s.layout, s.level, s.withTargets, s.useColor, ())

end LogSettings

end WorkflowAugment

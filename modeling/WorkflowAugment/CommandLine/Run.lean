import WorkflowAugment.Augment.Walk
import WorkflowAugment.CommandLine.Help
import WorkflowAugment.CommandLine.Options
import WorkflowAugment.Log.Line

/-!
# A run of the command

A run has two parts with the reading of the input between them. `start` looks at the arguments and the environment and
either ends the run or says what is to be read; `Job.finish` goes on with what was read. Both are functions, so a run
is one of the arguments, the environment and the content of the input.
-/

namespace WorkflowAugment.CommandLine

/-- What a run leaves behind: its exit status, its output, the error that ended it and the lines of the log. -/
structure Outcome where
  status : Nat
  output : String
  error : Option String
  log : List String
deriving DecidableEq

/-- Where the input is read from. -/
inductive Source where
  | standardInput
  | file (path : Octets)
deriving DecidableEq

/-- How a message names the source. -/
def Source.describe : Source → String
  | .standardInput => "stdin"
  | .file path => Text.Utf8.decodeLossy path

/-- A run that is about to read its input. -/
structure Job where
  options : Options
  logging : LogSettings
  settings : AugmentSettings

/-- The record of the settings that a run goes by. -/
def settingsRecord (s : AugmentSettings) : Record :=
  ⟨.info, "pipec", "configuration resolved",
    [("tls", .display s.tls.name), ("ca_bundle", .flag s.bundle.isConfigured), ("exit_template", .text s.exitTemplate)]⟩

/-- The record of a workflow that has been read. -/
def loadedRecord (w : Workflow) : Record :=
  ⟨.debug, "pipec", "workflow loaded",
    [("templates", .count w.templates.length), ("entrypoint", .display w.entrypoint)]⟩

/-- The record of a report. -/
def reportRecord (r : Report) : Record :=
  ⟨.info, "pipec", "workflow augmented", [("report", .display r.display)]⟩

/-- The environment as texts: octets that are not UTF-8 are replaced. -/
def textEnvironment (env : String → Option Octets) : Environment := fun name => (env name).map Text.Utf8.decodeLossy

/-- A run that ends with an error. -/
def failure (message : String) (log : List String) : Outcome := ⟨1, "", some message, log⟩

/-- The run up to the reading of its input. -/
def start (args : List Octets) (env : String → Option Octets) : Except Outcome Job :=
  match request args with
  | .misuse => .error ⟨2, "", none, []⟩
  | .version => .error ⟨0, versionText, none, []⟩
  | .help long => .error ⟨0, if long then longHelp else shortHelp, none, []⟩
  | .run options =>
    match LogSettings.ofEnvironment (textEnvironment env) with
    | .error e => .error (failure e.message [])
    | .ok logging =>
      match AugmentSettings.ofEnvironment (textEnvironment env) with
      | .error e => .error (failure e.message [])
      | .ok settings =>
        .ok ⟨options, logging, options.exitTemplate.elim settings settings.withExitTemplate⟩

namespace Job

/-- What the run reads. -/
def source (j : Job) : Source :=
  if isStandardInput j.options.input then .standardInput else .file (j.options.input.getD [])

/-- The run from its input on; no content means that the source could not be read. -/
def finish (j : Job) (content : Option Octets) : Outcome :=
  let first : List LogEntry := [⟨none, settingsRecord j.settings⟩]
  match content.bind Text.Utf8.decode? with
  | none => failure ("reading workflow from " ++ j.source.describe) (j.logging.lines first)
  | some text =>
    match Workflow.codec.read text with
    | .error _ => failure "parsing workflow JSON" (j.logging.lines first)
    | .ok w =>
      let loaded := first ++ [⟨none, loadedRecord w⟩]
      let a := w.augment j.settings .driver j.options.root
      let walked := loaded ++ a.events.map fun e => ⟨some a.span, e.record⟩
      match a.result with
      | .error e => failure e.message (j.logging.lines walked)
      | .ok report =>
        ⟨0, Workflow.codec.text j.options.isPretty a.workflow ++ "\n", none,
          j.logging.lines (walked ++ [⟨none, reportRecord report⟩])⟩

end Job

/-- A whole run, given what each source holds. -/
def run (args : List Octets) (env : String → Option Octets) (content : Source → Option Octets) : Outcome :=
  match start args env with
  | .error outcome => outcome
  | .ok job => job.finish (content job.source)

end WorkflowAugment.CommandLine

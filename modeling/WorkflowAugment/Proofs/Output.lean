import WorkflowAugment.CommandLine.Run
import WorkflowAugment.Proofs.Rereading
import WorkflowAugment.Proofs.Settings

/-!
# What a run puts out

A run with arguments that it accepts goes through five stages: the settings of the log, the settings of the augmentation, the
reading of the input, its parsing and the augmentation. If one of them fails the run fails and puts out nothing
(`run_of_not_completes`). If all go through it puts out the augmented workflow (`run_of_completes`), as one document that is
read as the workflow again, and nothing of that depends on what the log is like (`run_output`).
-/

namespace WorkflowAugment

/-- The text of an object ends with its brace. -/
theorem Json.exists_render_object (ms : List (String × Json)) (isPretty : Bool) :
    ∃ before, (Json.object ms).render isPretty = before ++ "\x7d" := by
  have hlast : ∃ cs, (if isPretty then (Json.object ms).pretty else (Json.object ms).compact) = cs ++ ['}'] := by
    cases isPretty with
    | false => exact ⟨_, by rw [if_neg (by decide), compact]⟩
    | true =>
      rw [if_pos rfl, pretty]
      cases ms with
      | nil => exact ⟨['{'], by simp [prettyAt]⟩
      | cons m ms => exact ⟨_, by rw [prettyAt]⟩
  obtain ⟨cs, hcs⟩ := hlast
  exact ⟨String.ofList cs, by rw [render, hcs, String.ofList_append]⟩

namespace CommandLine

/-! ## The stages of a run -/

/-- Every stage of a run goes through: the settings of the log and of the augmentation are resolved, the input is read as text
and parsed, and the workflow is augmented. -/
structure Completes (options : Options) (env : String → Option Octets) (content : Source → Option Octets) (job : Job)
    (text : String) (w : Workflow) (r : Report) : Prop where
  accepted : job.options = options
  logging : LogSettings.ofEnvironment (textEnvironment env) = .ok job.logging
  settings : ∃ settings, AugmentSettings.ofEnvironment (textEnvironment env) = .ok settings ∧
    job.settings = options.exitTemplate.elim settings settings.withExitTemplate
  reading : (content job.source).bind Text.Utf8.decode? = some text
  parsing : Workflow.codec.read text = .ok w
  augmenting : (w.augment job.settings .driver options.root).result = .ok r

variable {args : List Octets} {options : Options} {env env' : String → Option Octets} {content : Source → Option Octets}
  {job : Job} {text : String} {w : Workflow} {r : Report}

/-- A run of which every stage goes through puts out the augmented workflow. -/
theorem run_of_completes (hargs : request args = .run options) (h : Completes options env content job text w r) :
    (run args env content).status = 0 ∧ (run args env content).output =
      Workflow.codec.text options.isPretty (w.augment job.settings .driver options.root).workflow ++ "\n" := by
  obtain ⟨settings, hsettings, hjob⟩ := h.settings
  obtain rfl := h.accepted
  have hstart : start args env = .ok job := by
    simp only [start, hargs, h.logging, hsettings]
    rw [← hjob]
  simp only [run, hstart, Job.finish, h.reading, h.parsing, h.augmenting, and_self]

/-- A job of which some stage fails ends with an error. -/
theorem Job.finish_eq_failure (job : Job) (read? : Option Octets)
    (h : ¬∃ text w r, read?.bind Text.Utf8.decode? = some text ∧ Workflow.codec.read text = .ok w ∧
      (w.augment job.settings .driver job.options.root).result = .ok r) :
    ∃ message log, job.finish read? = failure message log := by
  rw [Job.finish]
  split
  · exact ⟨_, _, rfl⟩
  · next text hreading =>
    split
    · exact ⟨_, _, rfl⟩
    · next w hparsing =>
      dsimp only
      split
      · exact ⟨_, _, rfl⟩
      · next r haugmenting => exact absurd ⟨text, w, r, hreading, hparsing, haugmenting⟩ h

/-- A run of which some stage fails ends with an error. -/
theorem run_eq_failure (hargs : request args = .run options)
    (h : ¬∃ job text w r, Completes options env content job text w r) :
    ∃ message log, run args env content = failure message log := by
  cases hlogging : LogSettings.ofEnvironment (textEnvironment env) with
  | error e => exact ⟨e.message, [], by simp only [run, start, hargs, hlogging]⟩
  | ok logging =>
    cases hsettings : AugmentSettings.ofEnvironment (textEnvironment env) with
    | error e => exact ⟨e.message, [], by simp only [run, start, hargs, hlogging, hsettings]⟩
    | ok settings =>
      have hstart : start args env =
          .ok ⟨options, logging, options.exitTemplate.elim settings settings.withExitTemplate⟩ := by
        simp only [start, hargs, hlogging, hsettings]
      rw [run, hstart]
      refine Job.finish_eq_failure _ _ ?_
      rintro ⟨text, w, r, hreading, hparsing, haugmenting⟩
      exact h ⟨_, text, w, r, rfl, hlogging, ⟨settings, hsettings, rfl⟩, hreading, hparsing, haugmenting⟩

/-! ## What the log leaves alone -/

/-- The environments agree on every variable but those of the log. -/
def SameButLog (env env' : String → Option Octets) : Prop :=
  ∀ name ∉ [logLevelVariable, logFormatVariable, noColorVariable], env name = env' name

/-- Two environments that differ in the log only do so either way. -/
theorem SameButLog.symm (h : SameButLog env env') : SameButLog env' env := fun name hname => (h name hname).symm

/-- No variable of the augmentation is one of the log. -/
theorem SameButLog.ofEnvironment (h : SameButLog env env') :
    AugmentSettings.ofEnvironment (textEnvironment env) = AugmentSettings.ofEnvironment (textEnvironment env') := by
  refine AugmentSettings.ofEnvironment_congr fun name hname => ?_
  have hother : ∀ name ∈ [tlsVariable, bundlePathVariable, bundleSecretVariable, exitTemplateVariable],
      name ∉ [logLevelVariable, logFormatVariable, noColorVariable] := by decide
  rw [textEnvironment, textEnvironment, h name (hother name hname)]

/-- A run completes under other settings of the log just as well. -/
theorem Completes.relog (h : Completes options env content job text w r) (hsame : SameButLog env env')
    {logging : LogSettings} (hlogging : LogSettings.ofEnvironment (textEnvironment env') = .ok logging) :
    Completes options env' content { job with logging } text w r := by
  obtain ⟨settings, hsettings, hjob⟩ := h.settings
  exact ⟨h.accepted, hlogging, ⟨settings, hsame.ofEnvironment ▸ hsettings, hjob⟩, h.reading, h.parsing, h.augmenting⟩

/-- The status and the output do not depend on the settings of the log. -/
theorem run_relog (hargs : request args = .run options) (hsame : SameButLog env env') {logging logging' : LogSettings}
    (h : LogSettings.ofEnvironment (textEnvironment env) = .ok logging)
    (h' : LogSettings.ofEnvironment (textEnvironment env') = .ok logging') (content : Source → Option Octets) :
    (run args env content).status = (run args env' content).status ∧
      (run args env content).output = (run args env' content).output := by
  by_cases hcompletes : ∃ job text w r, Completes options env content job text w r
  · obtain ⟨job, text, w, r, hcompletes⟩ := hcompletes
    obtain ⟨hstatus, houtput⟩ := run_of_completes hargs hcompletes
    obtain ⟨hstatus', houtput'⟩ := run_of_completes hargs (hcompletes.relog hsame h')
    exact ⟨hstatus.trans hstatus'.symm, houtput.trans houtput'.symm⟩
  · have hcompletes' : ¬∃ job text w r, Completes options env' content job text w r := by
      rintro ⟨job, text, w, r, hc⟩
      exact hcompletes ⟨_, text, w, r, hc.relog hsame.symm h⟩
    obtain ⟨message, log, hrun⟩ := run_eq_failure hargs hcompletes
    obtain ⟨message', log', hrun'⟩ := run_eq_failure hargs hcompletes'
    rw [hrun, hrun']
    exact ⟨rfl, rfl⟩

/-! ## What is put out -/

/-- The text of a workflow ends with a brace. -/
theorem exists_text_workflow (isPretty : Bool) (w : Workflow) :
    ∃ before, Workflow.codec.text isPretty w = before ++ "\x7d" :=
  Json.exists_render_object _ isPretty

/-- A run whose arguments are accepted puts out a whole document or nothing. If some stage fails, so does the run, and it puts
out nothing. If all stages go through, it puts out one document and a single newline; the document, laid out in either way, is
read as the workflow that the augmentation leaves, provided that the numbers in the input, which can only be in members
without a meaning of their own, are integers. Environments that differ in the variables of the log alone, and hold valid
settings of it, make no difference to the status and the output. -/
theorem run_output (hargs : request args = .run options) (content : Source → Option Octets) :
    (∀ env, (¬∃ job text w r, Completes options env content job text w r) →
      (run args env content).status ≠ 0 ∧ (run args env content).output = "") ∧
    (∀ env job text w r, Completes options env content job text w r → (Json.ofText text).Integral →
      (run args env content).status = 0 ∧
      (run args env content).output =
        Workflow.codec.text options.isPretty (w.augment job.settings .driver options.root).workflow ++ "\n" ∧
      ∀ isPretty,
        (∃ before, Workflow.codec.text isPretty (w.augment job.settings .driver options.root).workflow = before ++ "\x7d") ∧
        Workflow.codec.read (Workflow.codec.text isPretty (w.augment job.settings .driver options.root).workflow) =
          .ok (w.augment job.settings .driver options.root).workflow) ∧
    ∀ env env' logging logging', SameButLog env env' →
      LogSettings.ofEnvironment (textEnvironment env) = .ok logging →
      LogSettings.ofEnvironment (textEnvironment env') = .ok logging' →
      (run args env content).status = (run args env' content).status ∧
      (run args env content).output = (run args env' content).output := by
  refine ⟨fun env h => ?_, fun env job text w r h hint => ?_, fun env env' _ _ hsame h h' => ?_⟩
  · obtain ⟨message, log, hrun⟩ := run_eq_failure hargs h
    rw [hrun]
    exact ⟨Nat.one_ne_zero, rfl⟩
  · obtain ⟨hstatus, houtput⟩ := run_of_completes hargs h
    refine ⟨hstatus, houtput, fun isPretty => ⟨exists_text_workflow isPretty _, ?_⟩⟩
    exact Workflow.read_augmented h.parsing hint job.settings .driver options.root isPretty
  · exact run_relog hargs hsame h h' content

/-! ## An example -/

/-- A dag of one task and the container that the task invokes. -/
def single : Workflow :=
  .ofTemplates "main" [.ofDag "main" (.ofTasks [.invoking "run" "leaf"]), .ofContainer "leaf" default]

/-- The workflow of the example can be written and read back. -/
theorem plain_single : single.Plain := by
  have htask : (Task.invoking "run" "leaf").Plain := ⟨Extra.plain_empty _, ⟨Extra.plain_empty _, nofun⟩, nofun⟩
  have hdag : (Template.ofDag "main" (.ofTasks [.invoking "run" "leaf"])).Plain := by
    refine ⟨Extra.plain_empty _, nofun, nofun, ?_⟩
    rintro _ ⟨⟩
    exact ⟨Extra.plain_empty _, List.forall_mem_singleton.mpr htask⟩
  have hcontainer : (Template.ofContainer "leaf" default).Plain := by
    refine ⟨Extra.plain_empty _, ?_, nofun, nofun⟩
    rintro _ ⟨⟩
    exact ⟨Extra.plain_empty _, nofun, nofun, nofun⟩
  exact ⟨Extra.plain_empty _, List.forall_mem_cons.mpr ⟨hdag, List.forall_mem_singleton.mpr hcontainer⟩⟩

/-- One octet for each character, which is right for ASCII texts. -/
def asciiOctets (text : String) : Octets := text.toList.map fun c => UInt8.ofNat c.toNat

/-- ASCII texts are read as themselves. -/
theorem decode?_asciiOctets {text : String} (h : text.toList.all (·.toNat < 0x80)) :
    Text.Utf8.decode? (asciiOctets text) = some text := by
  have hitems : ∀ cs : List Char, cs.all (·.toNat < 0x80) →
      (Text.Utf8.items none (cs.map fun c => UInt8.ofNat c.toNat)).mapM Text.Utf8.Item.char? = some cs := by
    intro cs hcs
    induction cs with
    | nil => rfl
    | cons c cs ih =>
      rw [List.all_cons, Bool.and_eq_true, decide_eq_true_eq] at hcs
      obtain ⟨hc, hcs⟩ := hcs
      have hoctet : (UInt8.ofNat c.toNat).toNat = c.toNat :=
        UInt8.toNat_ofNat_of_lt' (Nat.lt_trans hc (by decide))
      rw [List.map_cons, Text.Utf8.items, Text.Utf8.step, Text.Utf8.start, hoctet, if_pos hc]
      simp [Text.Utf8.Item.char?, ih hcs]
  rw [Text.Utf8.decode?, asciiOctets, hitems _ h, Option.map_some, String.ofList_toList]

/-- Whatever is read holds the example. -/
def singleContent : Source → Option Octets := fun _ => some (asciiOctets (Workflow.codec.text false single))

/-- From any source the example has its own text. -/
theorem bind_singleContent (source : Source) :
    (singleContent source).bind Text.Utf8.decode? = some (Workflow.codec.text false single) := by
  rw [singleContent, Option.bind_some]
  exact decode?_asciiOctets (by decide +kernel)

/-- The workflow of the example is read back from its text. -/
theorem read_text_single : Workflow.codec.read (Workflow.codec.text false single) = .ok single := by
  have hdepth : (Workflow.codec.write single).depth ≤ maxDepth := by decide
  exact plain_single.restores.read_written hdepth false

/-- The text of the example spells what is written for it. -/
theorem ofText_text_single : Json.ofText (Workflow.codec.text false single) = Workflow.codec.write single :=
  Json.ofText_render plain_single.restores.integral false

/-- The example on the standard input is put out and is read again. With `NO_COLOR` set it is put out just the same, and
without an input there is no output. -/
theorem run_output_single :
    let args := [octetsOf "--root-dag-id", octetsOf "root"]
    let options : Options := ⟨none, "root", none, false⟩
    let settings : AugmentSettings := ⟨.disabled, ⟨"", ""⟩, none⟩
    let colorless : String → Option Octets := fun name => if name = noColorVariable then some [49] else none
    request args = .run options ∧
    Completes options (fun _ => none) singleContent ⟨options, .standard, settings⟩ (Workflow.codec.text false single) single
      ⟨1, 1, 0⟩ ∧
    (run args (fun _ => none) singleContent).status = 0 ∧
    Workflow.codec.read (Workflow.codec.text true (single.augment settings .driver "root").workflow) =
      .ok (single.augment settings .driver "root").workflow ∧
    (run args (fun _ => none) singleContent).output = (run args colorless singleContent).output ∧
    (run args colorless fun _ => none).output = "" := by
  intro args options settings colorless
  have hargs : request args = .run options := by decide +kernel
  have hcompletes : Completes options (fun _ => none) singleContent ⟨options, .standard, settings⟩
      (Workflow.codec.text false single) single ⟨1, 1, 0⟩ :=
    ⟨rfl, rfl, ⟨settings, rfl, rfl⟩, bind_singleContent .standardInput, read_text_single, rfl⟩
  have hsame : SameButLog (fun _ => none) colorless := by
    intro name hname
    have hne : name ≠ noColorVariable := fun h => hname (by simp [h])
    exact (if_neg hne).symm
  have hfails : ¬∃ job text w r, Completes options colorless (fun _ => none) job text w r := by
    rintro ⟨job, text, w, r, h⟩
    exact Option.some_ne_none text h.reading.symm
  obtain ⟨-, hfull, hrelog⟩ := run_output hargs singleContent
  obtain ⟨hstatus, -, hread⟩ := hfull _ _ _ _ _ hcompletes (by
    rw [ofText_text_single]
    exact plain_single.restores.integral)
  obtain ⟨hnothing, -⟩ := run_output hargs fun _ => none
  exact ⟨hargs, hcompletes, hstatus, (hread true).2, (hrelog _ colorless .standard _ hsame rfl rfl).2,
    (hnothing colorless hfails).2⟩

end CommandLine

end WorkflowAugment

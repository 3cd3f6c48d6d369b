import WorkflowAugment.Manifest.Workflow
import WorkflowAugment.Proofs.Json.Restoring

/-!
# Writing a document and reading it

Nothing is lost when a value is written and read again, whichever of the types of a workflow document it has
(`Kind.read_text`). The value has to be plain: no object in it keeps a member under a name that its type has a field for,
since the field would be read from it, and the numbers among the kept members are integers.
-/

namespace WorkflowAugment

/-! ## Plain values -/

/-- A field selector with nothing but plain members kept in it. -/
structure FieldSelector.Plain (s : FieldSelector) : Prop where
  extra : s.extra.Plain ["fieldPath"]

/-- The source of a variable with nothing but plain members kept in it. -/
structure EnvVarSource.Plain (s : EnvVarSource) : Prop where
  extra : s.extra.Plain ["fieldRef"]
  fieldRef : ∀ r ∈ s.fieldRef, r.Plain

/-- A variable with nothing but plain members kept in it. -/
structure EnvVar.Plain (e : EnvVar) : Prop where
  extra : e.extra.Plain ["name", "value", "valueFrom"]
  valueFrom : ∀ s ∈ e.valueFrom, s.Plain

/-- A ConfigMap source with nothing but plain members kept in it. -/
structure ConfigMapSource.Plain (s : ConfigMapSource) : Prop where
  extra : s.extra.Plain ["name", "optional"]

/-- A source of several variables with nothing but plain members kept in it. -/
structure EnvFromSource.Plain (s : EnvFromSource) : Prop where
  extra : s.extra.Plain ["configMapRef"]
  configMapRef : ∀ r ∈ s.configMapRef, r.Plain

/-- A secret source with nothing but plain members kept in it. -/
structure SecretSource.Plain (s : SecretSource) : Prop where
  extra : s.extra.Plain ["secretName"]

/-- A volume with nothing but plain members kept in it. -/
structure Volume.Plain (v : Volume) : Prop where
  extra : v.extra.Plain ["name", "secret"]
  secret : ∀ s ∈ v.secret, s.Plain

/-- A mount with nothing but plain members kept in it. -/
structure VolumeMount.Plain (m : VolumeMount) : Prop where
  extra : m.extra.Plain ["name", "mountPath"]

/-- A container with nothing but plain members kept in it. -/
structure Container.Plain (c : Container) : Prop where
  extra : c.extra.Plain ["image", "command", "args", "env", "envFrom", "volumeMounts"]
  env : ∀ e ∈ c.env, e.Plain
  envFrom : ∀ s ∈ c.envFrom, s.Plain
  volumeMounts : ∀ m ∈ c.volumeMounts, m.Plain

/-- A parameter with nothing but plain members kept in it. -/
structure Parameter.Plain (p : Parameter) : Prop where
  extra : p.extra.Plain ["name", "value"]

/-- Arguments with nothing but plain members kept in them. -/
structure Arguments.Plain (a : Arguments) : Prop where
  extra : a.extra.Plain ["parameters"]
  parameters : ∀ p ∈ a.parameters, p.Plain

/-- A hook with nothing but plain members kept in it. -/
structure Hook.Plain (h : Hook) : Prop where
  extra : h.extra.Plain ["template", "arguments"]
  arguments : h.arguments.Plain

/-- Hooks with nothing but plain members kept in them; the events may have any names. -/
def Hooks.Plain (h : Hooks) : Prop := ∀ e ∈ h.entries, e.2.Plain

/-- A task with nothing but plain members kept in it. -/
structure Task.Plain (t : Task) : Prop where
  extra : t.extra.Plain ["name", "template", "depends", "arguments", "hooks"]
  arguments : t.arguments.Plain
  hooks : Hooks.Plain t.hooks

/-- A dag with nothing but plain members kept in it. -/
structure Dag.Plain (d : Dag) : Prop where
  extra : d.extra.Plain ["tasks"]
  tasks : ∀ t ∈ d.tasks, t.Plain

/-- A template with nothing but plain members kept in it. -/
structure Template.Plain (t : Template) : Prop where
  extra : t.extra.Plain ["name", "container", "volumes", "dag"]
  container : ∀ c ∈ t.container, c.Plain
  volumes : ∀ v ∈ t.volumes, v.Plain
  dag : ∀ d ∈ t.dag, d.Plain

/-- A workflow with nothing but plain members kept in it. -/
structure Workflow.Plain (w : Workflow) : Prop where
  extra : w.extra.Plain ["entrypoint", "templates"]
  templates : ∀ t ∈ w.templates, t.Plain

/-! ## What is written for them is read as it was -/

/-- A list that may be left out is restored if its elements are. -/
theorem Slot.Restores.list {α : Type} {c : Codec α} {xs : List α} (h : ∀ x ∈ xs, c.Restores x) :
    (Slot.list c).Restores xs :=
  .default (.list h) List.isEmpty_iff.mp

/-- A text that may be left out is restored. -/
theorem Slot.Restores.text {o : Option String} : (Slot.optional .string).Restores o := .optional fun s _ => .string s

/-- A list of texts is restored. -/
theorem Slot.Restores.texts {xs : List String} : (Slot.list .string).Restores xs := .list fun s _ => .string s

theorem FieldSelector.Plain.restores {s : FieldSelector} (h : s.Plain) : FieldSelector.codec.Restores s :=
  .record (.field (by decide) (.required (.string _)) .done) h.extra rfl

theorem EnvVarSource.Plain.restores {s : EnvVarSource} (h : s.Plain) : EnvVarSource.codec.Restores s :=
  .record (.field (by decide) (.optional fun r hr => (h.fieldRef r hr).restores) .done) h.extra rfl

/-- A plain variable is read from what is written for it. -/
theorem EnvVar.Plain.restores {e : EnvVar} (h : e.Plain) : EnvVar.codec.Restores e :=
  .record
    (.field (by decide) (.required (.string _)) <| .field (by decide) .text <|
      .field (by decide) (.optional fun s hs => (h.valueFrom s hs).restores) .done)
    h.extra rfl

theorem ConfigMapSource.Plain.restores {s : ConfigMapSource} (h : s.Plain) : ConfigMapSource.codec.Restores s :=
  .record
    (.field (by decide) (.required (.string _)) <| .field (by decide) (.optional fun b _ => .bool b) .done)
    h.extra rfl

theorem EnvFromSource.Plain.restores {s : EnvFromSource} (h : s.Plain) : EnvFromSource.codec.Restores s :=
  .record (.field (by decide) (.optional fun r hr => (h.configMapRef r hr).restores) .done) h.extra rfl

theorem SecretSource.Plain.restores {s : SecretSource} (h : s.Plain) : SecretSource.codec.Restores s :=
  .record (.field (by decide) (.required (.string _)) .done) h.extra rfl

theorem Volume.Plain.restores {v : Volume} (h : v.Plain) : Volume.codec.Restores v :=
  .record
    (.field (by decide) (.required (.string _)) <|
      .field (by decide) (.optional fun s hs => (h.secret s hs).restores) .done)
    h.extra rfl

theorem VolumeMount.Plain.restores {m : VolumeMount} (h : m.Plain) : VolumeMount.codec.Restores m :=
  .record
    (.field (by decide) (.required (.string _)) <| .field (by decide) (.required (.string _)) .done)
    h.extra rfl

/-- A plain container is read from what is written for it. -/
theorem Container.Plain.restores {c : Container} (h : c.Plain) : Container.codec.Restores c :=
  .record
    (.field (by decide) (.required (.string _)) <| .field (by decide) .texts <| .field (by decide) .texts <|
      .field (by decide) (.list fun e he => (h.env e he).restores) <|
      .field (by decide) (.list fun s hs => (h.envFrom s hs).restores) <|
      .field (by decide) (.list fun m hm => (h.volumeMounts m hm).restores) .done)
    h.extra rfl

theorem Parameter.Plain.restores {p : Parameter} (h : p.Plain) : Parameter.codec.Restores p :=
  .record (.field (by decide) (.required (.string _)) <| .field (by decide) .text .done) h.extra rfl

theorem Arguments.Plain.restores {a : Arguments} (h : a.Plain) : Arguments.codec.Restores a :=
  .record (.field (by decide) (.list fun p hp => (h.parameters p hp).restores) .done) h.extra rfl

/-- Arguments with nothing to pass are the empty ones. -/
theorem Arguments.eq_empty_of_isEmpty {a : Arguments} (h : a.isEmpty) : a = .empty := by
  obtain ⟨parameters, extra⟩ := a
  obtain ⟨hparameters, hextra⟩ : parameters.isEmpty ∧ extra.isEmpty := by simpa [isEmpty] using h
  have hentries : extra.dict.entries = [] := List.isEmpty_iff.mp hextra
  rw [List.isEmpty_iff.mp hparameters, empty, Extra.ext (Dict.ext hentries : extra.dict = Extra.empty.dict)]

/-- Plain arguments are read from what is written for them, and left out if there are none. -/
theorem Slot.Restores.arguments {a : Arguments} (h : a.Plain) : Slot.arguments.Restores a :=
  .default h.restores Arguments.eq_empty_of_isEmpty

theorem Hook.Plain.restores {k : Hook} (h : k.Plain) : Hook.codec.Restores k :=
  .record (.field (by decide) (.required (.string _)) <| .field (by decide) (.arguments h.arguments) .done) h.extra rfl

theorem Hooks.Plain.restores {d : Hooks} (h : Hooks.Plain d) : Hooks.codec.Restores d :=
  .dictionary fun e he => (h e he).restores

/-- A plain task is read from what is written for it. -/
theorem Task.Plain.restores {t : Task} (h : t.Plain) : Task.codec.Restores t :=
  .record
    (.field (by decide) (.required (.string _)) <| .field (by decide) (.required (.string _)) <|
      .field (by decide) .text <| .field (by decide) (.arguments h.arguments) <|
      .field (by decide) (.default h.hooks.restores fun he => Dict.ext (List.isEmpty_iff.mp he)) .done)
    h.extra rfl

theorem Dag.Plain.restores {d : Dag} (h : d.Plain) : Dag.codec.Restores d :=
  .record (.field (by decide) (.default (.list fun t ht => (h.tasks t ht).restores) nofun) .done) h.extra rfl

/-- A plain template is read from what is written for it. -/
theorem Template.Plain.restores {t : Template} (h : t.Plain) : Template.codec.Restores t :=
  .record
    (.field (by decide) (.required (.string _)) <|
      .field (by decide) (.optional fun c hc => (h.container c hc).restores) <|
      .field (by decide) (.list fun v hv => (h.volumes v hv).restores) <|
      .field (by decide) (.optional fun d hd => (h.dag d hd).restores) .done)
    h.extra rfl

/-- A plain workflow is read from what is written for it. -/
theorem Workflow.Plain.restores {w : Workflow} (h : w.Plain) : Workflow.codec.Restores w :=
  .record
    (.field (by decide) (.required (.string _)) <|
      .field (by decide) (.default (.list fun t ht => (h.templates t ht).restores) nofun) .done)
    h.extra rfl

/-! ## All of them -/

/-- The types whose values have documents. -/
inductive Kind where
  | workflow
  | template
  | container
  | dag
  | task
  | arguments
  | parameter
  | hook
  | hooks
  | envVar
  | envVarSource
  | fieldSelector
  | envFromSource
  | configMapSource
  | volume
  | secretSource
  | volumeMount
deriving DecidableEq, Repr

namespace Kind

/-- The values of the type. -/
abbrev Value : Kind → Type
  | workflow => Workflow
  | template => Template
  | container => Container
  | dag => Dag
  | task => Task
  | arguments => Arguments
  | parameter => Parameter
  | hook => Hook
  | hooks => Hooks
  | envVar => EnvVar
  | envVarSource => EnvVarSource
  | fieldSelector => FieldSelector
  | envFromSource => EnvFromSource
  | configMapSource => ConfigMapSource
  | volume => Volume
  | secretSource => SecretSource
  | volumeMount => VolumeMount

/-- How values of the type stand in documents. -/
def codec : (k : Kind) → Codec k.Value
  | workflow => Workflow.codec
  | template => Template.codec
  | container => Container.codec
  | dag => Dag.codec
  | task => Task.codec
  | arguments => Arguments.codec
  | parameter => Parameter.codec
  | hook => Hook.codec
  | hooks => Hooks.codec
  | envVar => EnvVar.codec
  | envVarSource => EnvVarSource.codec
  | fieldSelector => FieldSelector.codec
  | envFromSource => EnvFromSource.codec
  | configMapSource => ConfigMapSource.codec
  | volume => Volume.codec
  | secretSource => SecretSource.codec
  | volumeMount => VolumeMount.codec

/-- A value of the type with nothing but plain members kept in it. -/
def Plain : (k : Kind) → k.Value → Prop
  | workflow => Workflow.Plain
  | template => Template.Plain
  | container => Container.Plain
  | dag => Dag.Plain
  | task => Task.Plain
  | arguments => Arguments.Plain
  | parameter => Parameter.Plain
  | hook => Hook.Plain
  | hooks => Hooks.Plain
  | envVar => EnvVar.Plain
  | envVarSource => EnvVarSource.Plain
  | fieldSelector => FieldSelector.Plain
  | envFromSource => EnvFromSource.Plain
  | configMapSource => ConfigMapSource.Plain
  | volume => Volume.Plain
  | secretSource => SecretSource.Plain
  | volumeMount => VolumeMount.Plain

/-- A plain value of any type is read from what is written for it. -/
theorem restores : ∀ (k : Kind) {a : k.Value}, k.Plain a → k.codec.Restores a
  | workflow, _, h => Workflow.Plain.restores h
  | template, _, h => Template.Plain.restores h
  | container, _, h => Container.Plain.restores h
  | dag, _, h => Dag.Plain.restores h
  | task, _, h => Task.Plain.restores h
  | arguments, _, h => Arguments.Plain.restores h
  | parameter, _, h => Parameter.Plain.restores h
  | hook, _, h => Hook.Plain.restores h
  | hooks, _, h => Hooks.Plain.restores h
  | envVar, _, h => EnvVar.Plain.restores h
  | envVarSource, _, h => EnvVarSource.Plain.restores h
  | fieldSelector, _, h => FieldSelector.Plain.restores h
  | envFromSource, _, h => EnvFromSource.Plain.restores h
  | configMapSource, _, h => ConfigMapSource.Plain.restores h
  | volume, _, h => Volume.Plain.restores h
  | secretSource, _, h => SecretSource.Plain.restores h
  | volumeMount, _, h => VolumeMount.Plain.restores h

/-- The compact and the pretty text of a plain value that is not nested too deep are read as the value. -/
theorem read_text (k : Kind) {a : k.Value} (hplain : k.Plain a) (hdepth : (k.codec.write a).depth ≤ maxDepth)
    (isPretty : Bool) : k.codec.read (k.codec.text isPretty a) = .ok a :=
  (k.restores hplain).read_written hdepth isPretty

/-! ### An example -/

/-- Kept members of two kinds. -/
def odd : Extra :=
  (Extra.empty.insert "\u0001" (.array [.null, .array [], .object []])
    (by simp [Json.Canonical, Json.CanonicalItems, Json.CanonicalMembers])).insert
    "retries" (.number (.integer (-3) (by decide))) trivial

/-- The members of the example are plain beside any names but their own. -/
theorem plain_odd {names : List String} (h : "\u0001" ∉ names ∧ "retries" ∉ names) : odd.Plain names := by
  intro e he
  have hentries : odd.entries =
      [("\u0001", .array [.null, .array [], .object []]), ("retries", .number (.integer (-3) (by decide)))] := rfl
  rw [hentries, List.mem_cons, List.mem_singleton] at he
  rcases he with rfl | rfl
  · exact ⟨h.1, by simp [Json.Integral, Json.IntegralItems, Json.IntegralMembers]⟩
  · exact ⟨h.2, _, _, rfl⟩

/-- A workflow in which arguments have kept members only, a hook has no arguments at all and texts need escapes. -/
def intricate : Workflow :=
  let hooks : Hooks := Dict.empty.insert "template" ⟨"say \"bye\"", .empty, .empty⟩
  let task : Task := ⟨"x", "é\n", some "", ⟨[], odd⟩, hooks, odd⟩
  let container : Container := ⟨"i", [], ["", "\\"], [⟨"E", none, some ⟨none, odd⟩, .empty⟩], [], [], .empty⟩
  ⟨"\u0000", [⟨"", some container, [⟨"v", some ⟨"s", odd⟩, .empty⟩], some ⟨[task], odd⟩, .empty⟩], odd⟩

/-- The workflow of the example is plain. -/
theorem plain_intricate : intricate.Plain := by
  refine ⟨plain_odd (by decide), List.forall_mem_singleton.mpr ⟨Extra.plain_empty _, ?container, ?volumes, ?dag⟩⟩
  case container =>
    rintro _ ⟨⟩
    refine ⟨Extra.plain_empty _, List.forall_mem_singleton.mpr ⟨Extra.plain_empty _, ?_⟩, nofun, nofun⟩
    rintro _ ⟨⟩
    exact ⟨plain_odd (by decide), nofun⟩
  case volumes =>
    refine List.forall_mem_singleton.mpr ⟨Extra.plain_empty _, ?_⟩
    rintro _ ⟨⟩
    exact ⟨plain_odd (by decide)⟩
  case dag =>
    rintro _ ⟨⟩
    refine ⟨plain_odd (by decide), List.forall_mem_singleton.mpr
      ⟨plain_odd (by decide), ⟨plain_odd (by decide), nofun⟩, ?_⟩⟩
    exact List.forall_mem_singleton.mpr ⟨Extra.plain_empty _, Extra.plain_empty _, nofun⟩

/-- The workflow is read as it was written, in both forms. -/
theorem read_text_intricate :
    (workflow.codec.write intricate).depth = 9 ∧
    workflow.codec.read (workflow.codec.text false intricate) = .ok intricate ∧
    workflow.codec.read (workflow.codec.text true intricate) = .ok intricate := by
  have hdepth : (workflow.codec.write intricate).depth = 9 := by decide
  have hle : (workflow.codec.write intricate).depth ≤ maxDepth := by
    rw [hdepth]
    decide
  exact ⟨hdepth, read_text workflow plain_intricate hle false, read_text workflow plain_intricate hle true⟩

end Kind

end WorkflowAugment

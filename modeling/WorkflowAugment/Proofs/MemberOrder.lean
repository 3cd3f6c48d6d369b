import WorkflowAugment.Augment.Walk
import WorkflowAugment.Proofs.Documents
import WorkflowAugment.Proofs.Json.Orderless

/-!
# The order of members does not matter

Every type of a workflow document is orderless: named members are looked up by name, all others and the hooks of a task are
kept by ascending name. So texts whose values differ in the order of members only are read as one type or not at all, and as
the same value of it, which is written and augmented in one way (`Kind.read_reordered`).
-/

namespace WorkflowAugment

/-- A list that may be left out depends on the order of members no more than its elements do. -/
theorem Slot.Orderless.list {α : Type} {c : Codec α} (h : c.Orderless) : (Slot.list c).Orderless := .default (.list h) _ _

theorem FieldSelector.orderless : FieldSelector.codec.Orderless := .record (.field (.required .string) .done)

theorem EnvVarSource.orderless : EnvVarSource.codec.Orderless :=
  .record (.field (.optional FieldSelector.orderless) .done)

theorem EnvVar.orderless : EnvVar.codec.Orderless :=
  .record (.field (.required .string) <| .field (.optional .string) <| .field (.optional EnvVarSource.orderless) .done)

theorem ConfigMapSource.orderless : ConfigMapSource.codec.Orderless :=
  .record (.field (.required .string) <| .field (.optional .bool) .done)

theorem EnvFromSource.orderless : EnvFromSource.codec.Orderless :=
  .record (.field (.optional ConfigMapSource.orderless) .done)

theorem SecretSource.orderless : SecretSource.codec.Orderless := .record (.field (.required .string) .done)

theorem Volume.orderless : Volume.codec.Orderless :=
  .record (.field (.required .string) <| .field (.optional SecretSource.orderless) .done)

theorem VolumeMount.orderless : VolumeMount.codec.Orderless :=
  .record (.field (.required .string) <| .field (.required .string) .done)

/-- A container depends on the order of members no more than its parts do. -/
theorem Container.orderless : Container.codec.Orderless :=
  .record
    (.field (.required .string) <| .field (.list .string) <| .field (.list .string) <| .field (.list EnvVar.orderless) <|
      .field (.list EnvFromSource.orderless) <| .field (.list VolumeMount.orderless) .done)

theorem Parameter.orderless : Parameter.codec.Orderless :=
  .record (.field (.required .string) <| .field (.optional .string) .done)

theorem Arguments.orderless : Arguments.codec.Orderless := .record (.field (.list Parameter.orderless) .done)

theorem Slot.Orderless.arguments : Slot.arguments.Orderless := .default Arguments.orderless _ _

theorem Hook.orderless : Hook.codec.Orderless := .record (.field (.required .string) <| .field .arguments .done)

/-- Hooks are kept by the names of their events, in whatever order they come. -/
theorem Hooks.orderless : Hooks.codec.Orderless := .dictionary Hook.orderless

/-- A task depends on the order of members no more than its parts do. -/
theorem Task.orderless : Task.codec.Orderless :=
  .record
    (.field (.required .string) <| .field (.required .string) <| .field (.optional .string) <| .field .arguments <|
      .field (.default Hooks.orderless _ _) .done)

theorem Dag.orderless : Dag.codec.Orderless := .record (.field (.default (.list Task.orderless) _ _) .done)

/-- A template depends on the order of members no more than its parts do. -/
theorem Template.orderless : Template.codec.Orderless :=
  .record
    (.field (.required .string) <| .field (.optional Container.orderless) <| .field (.list Volume.orderless) <|
      .field (.optional Dag.orderless) .done)

theorem Workflow.orderless : Workflow.codec.Orderless :=
  .record (.field (.required .string) <| .field (.default (.list Template.orderless) _ _) .done)

namespace Kind

/-- No type depends on the order of members. -/
theorem orderless : ∀ k : Kind, k.codec.Orderless
  | workflow => Workflow.orderless
  | template => Template.orderless
  | container => Container.orderless
  | dag => Dag.orderless
  | task => Task.orderless
  | arguments => Arguments.orderless
  | parameter => Parameter.orderless
  | hook => Hook.orderless
  | hooks => Hooks.orderless
  | envVar => EnvVar.orderless
  | envVarSource => EnvVarSource.orderless
  | fieldSelector => FieldSelector.orderless
  | envFromSource => EnvFromSource.orderless
  | configMapSource => ConfigMapSource.orderless
  | volume => Volume.orderless
  | secretSource => SecretSource.orderless
  | volumeMount => VolumeMount.orderless

/-- Let a value have no repeated names, let another differ from it in the order of members only, at any depth, and let two
texts spell them. Whatever type is asked for, one text is read as a value of it if and only if the other is. Then the two
values are equal, and so are the compact texts that are written for them, and the pretty ones. Workflows that are read are
augmented in the same way, whatever the settings, the identifiers and the root. -/
theorem read_reordered {v v' : Json} (hreordered : v.Reordered v') (hdistinct : v.Distinct) {text text' : String}
    (htext : v.SpelledBy text) (htext' : v'.SpelledBy text') :
    (∀ k : Kind,
      ((∃ a, k.codec.read text = .ok a) ↔ ∃ a, k.codec.read text' = .ok a) ∧
      ∀ a a', k.codec.read text = .ok a → k.codec.read text' = .ok a' →
        a = a' ∧ ∀ isPretty, k.codec.text isPretty a = k.codec.text isPretty a') ∧
    ∀ w w', Workflow.codec.read text = .ok w → Workflow.codec.read text' = .ok w' →
      ∀ s ids root, w.augment s ids root = w'.augment s ids root := by
  have hread : ∀ (k : Kind) a, k.codec.read text = .ok a ↔ k.codec.read text' = .ok a :=
    fun k a => k.orderless.read_eq_ok_iff hreordered hdistinct htext htext'
  have heq : ∀ (k : Kind) a a', k.codec.read text = .ok a → k.codec.read text' = .ok a' → a = a' := by
    intro k a a' ha ha'
    rw [(hread k a).mp ha] at ha'
    exact Except.ok.inj ha'
  refine ⟨fun k => ⟨exists_congr (hread k), fun a a' ha ha' => ?_⟩, fun w w' hw hw' s ids root => ?_⟩
  · obtain rfl := heq k a a' ha ha'
    exact ⟨rfl, fun _ => rfl⟩
  · rw [heq workflow w w' hw hw']

/-! ### An example -/

/-- A document with two hooks for one task and with an object among the members that are kept. -/
def listed : Json :=
  .object
    [("templates", .array
      [.object
        [("name", .string "a"),
          ("dag", .object
            [("tasks", .array
              [.object
                [("name", .string "t"),
                  ("hooks", .object
                    [("exit", .object [("template", .string "b")]), ("running", .object [("template", .string "c")])]),
                  ("template", .string "b")]]),
              ("failFast", .bool true)])],
        .object [("limits", .object [("name", .null), ("cpu", .string "2")]), ("name", .string "b")]]),
      ("entrypoint", .string "a")]

/-- The document with the first two members of every object the other way round. -/
def relisted : Json :=
  .object
    [("entrypoint", .string "a"),
      ("templates", .array
        [.object
          [("dag", .object
            [("failFast", .bool true),
              ("tasks", .array
                [.object
                  [("hooks", .object
                    [("running", .object [("template", .string "c")]), ("exit", .object [("template", .string "b")])]),
                    ("name", .string "t"), ("template", .string "b")]])]),
            ("name", .string "a")],
          .object [("name", .string "b"), ("limits", .object [("cpu", .string "2"), ("name", .null)])]])]

/-- The two documents differ in the order of members only, at two depths. -/
theorem reordered_relisted : listed.Reordered relisted := by
  have hhooks := Json.Reordered.swap "exit" "running" (.refl (.object [("template", .string "b")]))
    (.refl (.object [("template", .string "c")])) []
  have htask := Json.Reordered.swap "name" "hooks" (.refl (.string "t")) hhooks [("template", .string "b")]
  have hdag := Json.Reordered.swap "tasks" "failFast" (.array (.cons htask .nil)) (.refl (.bool true)) []
  have hlimits := Json.Reordered.swap "name" "cpu" (.refl .null) (.refl (.string "2")) []
  have htemplates := Json.Reordered.array
    (.cons (Json.Reordered.swap "name" "dag" (.refl (.string "a")) hdag [])
      (.cons (Json.Reordered.swap "limits" "name" hlimits (.refl (.string "b")) []) .nil))
  exact Json.Reordered.swap "templates" "entrypoint" htemplates (.refl (.string "a")) []

/-- The compact text of the one document and the pretty text of the other are read as one workflow. -/
theorem read_reordered_relisted : listed.Reordered relisted ∧ listed.Distinct ∧ ∃ w : Workflow,
    Workflow.codec.read (listed.render false) = .ok w ∧ Workflow.codec.read (relisted.render true) = .ok w ∧
    (w.templates.flatMap (·.tasks)).map (·.hooks.entries.map (·.1)) = [["exit", "running"]] := by
  have hdistinct : listed.Distinct := by simp [listed, Json.Distinct, Json.DistinctItems, Json.DistinctMembers]
  have hint : listed.Integral := by simp [listed, Json.Integral, Json.IntegralItems, Json.IntegralMembers]
  have hint' : relisted.Integral := by simp [relisted, Json.Integral, Json.IntegralItems, Json.IntegralMembers]
  obtain ⟨hkinds, -⟩ := read_reordered reordered_relisted hdistinct (Json.spelledBy_render hint false)
    (Json.spelledBy_render hint' true)
  have hread : Workflow.codec.read (listed.render false) = .ok (Workflow.codec.value listed.toTree) :=
    Codec.read_render rfl false
  obtain ⟨w, hw⟩ := (hkinds workflow).1.mp ⟨_, hread⟩
  obtain ⟨heq, -⟩ := (hkinds workflow).2 _ w hread hw
  exact ⟨reordered_relisted, hdistinct, w, heq ▸ hread, hw, heq ▸ rfl⟩

/-- Which problem is met first does depend on the order. -/
example :
    (Template.codec.shape.problem? maxDepth (Json.object [("name", .null), ("volumes", .null)]).toTree).bind
      Problem.message? = some "invalid type: null, expected a string" ∧
    (Template.codec.shape.problem? maxDepth (Json.object [("volumes", .null), ("name", .null)]).toTree).bind
      Problem.message? = some "invalid type: null, expected a sequence" :=
  ⟨rfl, rfl⟩

end Kind

end WorkflowAugment

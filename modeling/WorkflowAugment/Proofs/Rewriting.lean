import WorkflowAugment.Manifest.Workflow
import WorkflowAugment.Proofs.Json.Tidying

/-!
# Reading a document and writing it

A workflow document that is read and written again is tidied and nothing else (`Workflow.text_of_read`). What that comes to
is said by one table of rules for each type of object in the document: null in the place of a value, an empty list and empty
hooks are removed, and so are arguments in which nothing is left; the tasks of a dag and the templates of a workflow are
added as an empty list where they are missing. Members without a rule stay as they are, with all that is in them.
-/

namespace WorkflowAugment

/-! ## Tidy documents -/

/-- An array that is removed if it is empty. -/
def Rule.list (tidy : Json → Json) : Rule := .withoutVoid (Json.tidyArray tidy)

/-- A field selector with the rules applied. -/
def FieldSelector.tidy : Json → Json := Json.tidyObject [("fieldPath", .kept)]

/-- The source of a variable with the rules applied. -/
def EnvVarSource.tidy : Json → Json := Json.tidyObject [("fieldRef", .withoutNull FieldSelector.tidy)]

/-- A variable with the rules applied. -/
def EnvVar.tidy : Json → Json :=
  Json.tidyObject [("name", .kept), ("value", .withoutNull id), ("valueFrom", .withoutNull EnvVarSource.tidy)]

/-- A ConfigMap source with the rules applied. -/
def ConfigMapSource.tidy : Json → Json := Json.tidyObject [("name", .kept), ("optional", .withoutNull id)]

/-- A source of several variables with the rules applied. -/
def EnvFromSource.tidy : Json → Json := Json.tidyObject [("configMapRef", .withoutNull ConfigMapSource.tidy)]

/-- A secret source with the rules applied. -/
def SecretSource.tidy : Json → Json := Json.tidyObject [("secretName", .kept)]

/-- A volume with the rules applied. -/
def Volume.tidy : Json → Json := Json.tidyObject [("name", .kept), ("secret", .withoutNull SecretSource.tidy)]

/-- A mount with the rules applied. -/
def VolumeMount.tidy : Json → Json := Json.tidyObject [("name", .kept), ("mountPath", .kept)]

/-- A container with the rules applied. -/
def Container.tidy : Json → Json :=
  Json.tidyObject
    [("image", .kept), ("command", .list id), ("args", .list id), ("env", .list EnvVar.tidy),
      ("envFrom", .list EnvFromSource.tidy), ("volumeMounts", .list VolumeMount.tidy)]

/-- A parameter with the rules applied. -/
def Parameter.tidy : Json → Json := Json.tidyObject [("name", .kept), ("value", .withoutNull id)]

/-- Arguments with the rules applied. -/
def Arguments.tidy : Json → Json := Json.tidyObject [("parameters", .list Parameter.tidy)]

/-- A hook with the rules applied. -/
def Hook.tidy : Json → Json := Json.tidyObject [("template", .kept), ("arguments", .withoutVoid Arguments.tidy)]

/-- Hooks with the rules applied to each. -/
def Hooks.tidy : Json → Json := Json.tidyValues Hook.tidy

/-- A task with the rules applied. -/
def Task.tidy : Json → Json :=
  Json.tidyObject
    [("name", .kept), ("template", .kept), ("depends", .withoutNull id), ("arguments", .withoutVoid Arguments.tidy),
      ("hooks", .withoutVoid Hooks.tidy)]

/-- A dag with the rules applied. -/
def Dag.tidy : Json → Json := Json.tidyObject [("tasks", .filled (Json.tidyArray Task.tidy))]

/-- A template with the rules applied. -/
def Template.tidy : Json → Json :=
  Json.tidyObject
    [("name", .kept), ("container", .withoutNull Container.tidy), ("volumes", .list Volume.tidy),
      ("dag", .withoutNull Dag.tidy)]

/-- A workflow with the rules applied. -/
def Workflow.tidy : Json → Json :=
  Json.tidyObject [("entrypoint", .kept), ("templates", .filled (Json.tidyArray Template.tidy))]

/-! ## What is written for them is tidy -/

/-- A list that may be left out is tidied element by element, and removed if it is empty. -/
theorem Slot.Tidies.list {α : Type} {c : Codec α} {tidy : Json → Json} (h : c.Tidies tidy) :
    (Slot.list c).Tidies (.list tidy) := by
  refine .default_withoutVoid (.list h) (fun xs => ?_) rfl
  cases xs <;> rfl

theorem FieldSelector.tidies : FieldSelector.codec.Tidies FieldSelector.tidy :=
  .record (.field (by decide) (.required .string) .done) fun _ _ => rfl

theorem EnvVarSource.tidies : EnvVarSource.codec.Tidies EnvVarSource.tidy :=
  .record (.field (by decide) (.optional FieldSelector.tidies) .done) fun _ _ => rfl

/-- A variable is written tidily if what it takes its value from is. -/
theorem EnvVar.tidies : EnvVar.codec.Tidies EnvVar.tidy :=
  .record
    (.field (by decide) (.required .string) <| .field (by decide) (.optional .string) <|
      .field (by decide) (.optional EnvVarSource.tidies) .done)
    fun _ _ => rfl

theorem ConfigMapSource.tidies : ConfigMapSource.codec.Tidies ConfigMapSource.tidy :=
  .record (.field (by decide) (.required .string) <| .field (by decide) (.optional .bool) .done) fun _ _ => rfl

theorem EnvFromSource.tidies : EnvFromSource.codec.Tidies EnvFromSource.tidy :=
  .record (.field (by decide) (.optional ConfigMapSource.tidies) .done) fun _ _ => rfl

theorem SecretSource.tidies : SecretSource.codec.Tidies SecretSource.tidy :=
  .record (.field (by decide) (.required .string) .done) fun _ _ => rfl

theorem Volume.tidies : Volume.codec.Tidies Volume.tidy :=
  .record (.field (by decide) (.required .string) <| .field (by decide) (.optional SecretSource.tidies) .done)
    fun _ _ => rfl

theorem VolumeMount.tidies : VolumeMount.codec.Tidies VolumeMount.tidy :=
  .record (.field (by decide) (.required .string) <| .field (by decide) (.required .string) .done) fun _ _ => rfl

/-- A container is written tidily if its parts are. -/
theorem Container.tidies : Container.codec.Tidies Container.tidy :=
  .record
    (.field (by decide) (.required .string) <| .field (by decide) (.list .string) <|
      .field (by decide) (.list .string) <| .field (by decide) (.list EnvVar.tidies) <|
      .field (by decide) (.list EnvFromSource.tidies) <| .field (by decide) (.list VolumeMount.tidies) .done)
    fun _ _ => rfl

theorem Parameter.tidies : Parameter.codec.Tidies Parameter.tidy :=
  .record (.field (by decide) (.required .string) <| .field (by decide) (.optional .string) .done) fun _ _ => rfl

theorem Arguments.tidies : Arguments.codec.Tidies Arguments.tidy :=
  .record (.field (by decide) (.list Parameter.tidies) .done) fun _ _ => rfl

/-- Arguments have nothing to pass if nothing is written in them. -/
theorem Arguments.isEmpty_eq_isVoid (a : Arguments) : a.isEmpty = (Arguments.codec.write a).isVoid := by
  obtain ⟨parameters, extra⟩ := a
  obtain ⟨⟨entries, ascending⟩, canonical⟩ := extra
  cases parameters <;> cases entries <;> rfl

/-- Arguments that may be left out are removed if there are none. -/
theorem Slot.Tidies.arguments : Slot.arguments.Tidies (.withoutVoid Arguments.tidy) :=
  .default_withoutVoid Arguments.tidies Arguments.isEmpty_eq_isVoid rfl

theorem Hook.tidies : Hook.codec.Tidies Hook.tidy :=
  .record (.field (by decide) (.required .string) <| .field (by decide) .arguments .done) fun _ _ => rfl

theorem Hooks.tidies : Hooks.codec.Tidies Hooks.tidy := .dictionary Hook.tidies

/-- There are no hooks if none is written. -/
theorem Hooks.isEmpty_eq_isVoid (h : Hooks) : h.isEmpty = (Hooks.codec.write h).isVoid := by
  obtain ⟨entries, ascending⟩ := h
  cases entries <;> rfl

/-- A task is written tidily if its arguments and its hooks are. -/
theorem Task.tidies : Task.codec.Tidies Task.tidy :=
  .record
    (.field (by decide) (.required .string) <| .field (by decide) (.required .string) <|
      .field (by decide) (.optional .string) <| .field (by decide) .arguments <|
      .field (by decide) (.default_withoutVoid Hooks.tidies Hooks.isEmpty_eq_isVoid rfl) .done)
    fun _ _ => rfl

theorem Dag.tidies : Dag.codec.Tidies Dag.tidy :=
  .record (.field (by decide) (.default_filled (.list Task.tidies) rfl) .done) fun _ _ => rfl

/-- A template is written tidily if its parts are. -/
theorem Template.tidies : Template.codec.Tidies Template.tidy :=
  .record
    (.field (by decide) (.required .string) <| .field (by decide) (.optional Container.tidies) <|
      .field (by decide) (.list Volume.tidies) <| .field (by decide) (.optional Dag.tidies) .done)
    fun _ _ => rfl

namespace Workflow

/-- A workflow is written tidily if its templates are. -/
theorem tidies : Workflow.codec.Tidies Workflow.tidy :=
  .record
    (.field (by decide) (.required .string) <| .field (by decide) (.default_filled (.list Template.tidies) rfl) .done)
    fun _ _ => rfl

/-- Every value without repeated names and with integers for numbers is what both its texts spell. Whichever text of it is
read as a workflow, the texts that are written for the workflow spell the tidied value, up to the order of members. -/
theorem text_of_read {v : Json} (hdistinct : v.Distinct) (hint : v.Integral) :
    (∀ isPretty, Json.ofText (v.render isPretty) = v) ∧
    ∀ text w, Json.ofText text = v → Workflow.codec.read text = .ok w →
      ∀ isPretty, (Json.ofText (Workflow.codec.text isPretty w)).Reordered (Workflow.tidy v) := by
  refine ⟨Json.ofText_render hint, ?_⟩
  rintro text w rfl hread isPretty
  obtain ⟨hfits, rfl⟩ := Codec.read_eq_ok hread
  rw [Codec.text, Json.ofText_render (tidies.integral _ hint)]
  exact tidies.reordered _ _ hfits hdistinct

/-! ### An example -/

/-- A document in which every rule has something to do and members without a rule look like others that have one. -/
def untidy : Json :=
  .object
    [("spec", .object [("value", .null), ("args", .array []), ("hooks", .object [])]),
      ("templates", .array
        [.object
          [("dag", .object []), ("container", .null), ("name", .string "a"), ("volumes", .array []), ("value", .null)],
        .object
          [("name", .string "b"),
            ("container", .object
              [("env_from", .array []), ("envFrom", .array []), ("image", .string "i"),
                ("env", .array
                  [.object [("valueFrom", .object [("fieldRef", .null)]), ("value", .null), ("name", .string "E")]])]),
            ("dag", .object
              [("tasks", .array
                [.object
                  [("name", .string "t"), ("template", .string "a"), ("depends", .null), ("hooks", .object []),
                    ("arguments", .object [("parameters", .array [])])]])])]]),
      ("entrypoint", .string "b")]

/-- The document with the rules applied. -/
def tidied : Json :=
  .object
    [("spec", .object [("value", .null), ("args", .array []), ("hooks", .object [])]),
      ("templates", .array
        [.object [("dag", .object [("tasks", .array [])]), ("name", .string "a"), ("value", .null)],
        .object
          [("name", .string "b"),
            ("container", .object
              [("env_from", .array []), ("image", .string "i"),
                ("env", .array [.object [("valueFrom", .object []), ("name", .string "E")]])]),
            ("dag", .object [("tasks", .array [.object [("name", .string "t"), ("template", .string "a")]])])]]),
      ("entrypoint", .string "b")]

/-- The document is read, and what is written for it is the tidied document. -/
theorem text_of_read_untidy :
    Workflow.tidy untidy = tidied ∧ ∃ w, Workflow.codec.read (untidy.render true) = .ok w ∧
      (Json.ofText (Workflow.codec.text false w)).Reordered tidied := by
  have hdistinct : untidy.Distinct := by simp [untidy, Json.Distinct, Json.DistinctItems, Json.DistinctMembers]
  have hint : untidy.Integral := by simp [untidy, Json.Integral, Json.IntegralItems, Json.IntegralMembers]
  have hread : Workflow.codec.read (untidy.render true) = .ok (Workflow.codec.value untidy.toTree) :=
    Codec.read_render rfl true
  obtain ⟨htext, hwritten⟩ := text_of_read hdistinct hint
  exact ⟨rfl, _, hread, hwritten _ _ (htext true) hread false⟩

end Workflow

end WorkflowAugment

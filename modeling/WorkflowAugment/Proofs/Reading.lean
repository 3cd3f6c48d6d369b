import WorkflowAugment.Proofs.Documents
import WorkflowAugment.Proofs.Json.Receiving

/-!
# What is read of a document

Every value that is read from a document with integers for numbers is plain, whichever of the types of a workflow document it
has: a member under the name of a field is read as the field and never kept. It is also written again within the depth that
a reader has room for (`Workflow.of_read`), so a workflow that has been read can be written and read again.
-/

namespace WorkflowAugment

/-- A list that may be left out is of elements of the kind, one level above them. -/
theorem Slot.Yields.list {α : Type} {c : Codec α} {P : α → Prop} {n : Nat} (h : c.Yields P n) :
    (Slot.list c).Yields (fun xs => ∀ x ∈ xs, P x) (n + 1) :=
  .default (.list h) (by simp) (.inl rfl)

theorem FieldSelector.yields : FieldSelector.codec.Yields FieldSelector.Plain 1 :=
  .record (.field (by decide) (.required .string) .done) (fun _ _ _ h => ⟨h⟩) fun _ _ => rfl

theorem EnvVarSource.yields : EnvVarSource.codec.Yields EnvVarSource.Plain 2 :=
  .record (.field (by decide) (.optional FieldSelector.yields) .done) (fun _ _ hx h => ⟨h, hx.1⟩) fun _ _ => rfl

/-- A variable is read as a plain one. -/
theorem EnvVar.yields : EnvVar.codec.Yields EnvVar.Plain 3 :=
  .record
    (.field (by decide) (.required .string) <| .field (by decide) (.optional .string) <|
      .field (by decide) (.optional EnvVarSource.yields) .done)
    (fun _ _ ⟨_, _, hvalueFrom, _⟩ h => ⟨h, hvalueFrom⟩) fun _ _ => rfl

theorem ConfigMapSource.yields : ConfigMapSource.codec.Yields ConfigMapSource.Plain 1 :=
  .record (.field (by decide) (.required .string) <| .field (by decide) (.optional .bool) .done) (fun _ _ _ h => ⟨h⟩)
    fun _ _ => rfl

theorem EnvFromSource.yields : EnvFromSource.codec.Yields EnvFromSource.Plain 2 :=
  .record (.field (by decide) (.optional ConfigMapSource.yields) .done) (fun _ _ hx h => ⟨h, hx.1⟩) fun _ _ => rfl

theorem SecretSource.yields : SecretSource.codec.Yields SecretSource.Plain 1 :=
  .record (.field (by decide) (.required .string) .done) (fun _ _ _ h => ⟨h⟩) fun _ _ => rfl

/-- A volume is read as a plain one. -/
theorem Volume.yields : Volume.codec.Yields Volume.Plain 2 :=
  .record
    (.field (by decide) (.required .string) <| .field (by decide) (.optional SecretSource.yields) .done)
    (fun _ _ ⟨_, hsecret, _⟩ h => ⟨h, hsecret⟩) fun _ _ => rfl

theorem VolumeMount.yields : VolumeMount.codec.Yields VolumeMount.Plain 1 :=
  .record (.field (by decide) (.required .string) <| .field (by decide) (.required .string) .done)
    (fun _ _ _ h => ⟨h⟩) fun _ _ => rfl

/-- A container is read as a plain one. -/
theorem Container.yields : Container.codec.Yields Container.Plain 5 :=
  .record
    (.field (by decide) (.required .string) <| .field (by decide) (.list .string) <|
      .field (by decide) (.list .string) <| .field (by decide) (.list EnvVar.yields) <|
      .field (by decide) (.list EnvFromSource.yields) <| .field (by decide) (.list VolumeMount.yields) .done)
    (fun _ _ ⟨_, _, _, henv, henvFrom, hmounts, _⟩ h => ⟨h, henv, henvFrom, hmounts⟩) fun _ _ => rfl

theorem Parameter.yields : Parameter.codec.Yields Parameter.Plain 1 :=
  .record (.field (by decide) (.required .string) <| .field (by decide) (.optional .string) .done) (fun _ _ _ h => ⟨h⟩)
    fun _ _ => rfl

theorem Arguments.yields : Arguments.codec.Yields Arguments.Plain 3 :=
  .record (.field (by decide) (.list Parameter.yields) .done) (fun _ _ hx h => ⟨h, hx.1⟩) fun _ _ => rfl

/-- Arguments without parameters are plain. -/
theorem Arguments.plain_empty : Arguments.empty.Plain := ⟨Extra.plain_empty _, by simp [Arguments.empty]⟩

/-- Arguments that may be left out are read as plain ones. -/
theorem Slot.Yields.arguments : Slot.arguments.Yields Arguments.Plain 3 :=
  .default Arguments.yields Arguments.plain_empty (.inl rfl)

theorem Hook.yields : Hook.codec.Yields Hook.Plain 4 :=
  .record (.field (by decide) (.required .string) <| .field (by decide) .arguments .done)
    (fun _ _ ⟨_, harguments, _⟩ h => ⟨h, harguments⟩) fun _ _ => rfl

theorem Hooks.yields : Hooks.codec.Yields Hooks.Plain 5 := .dictionary Hook.yields

/-- A task is read as a plain one. -/
theorem Task.yields : Task.codec.Yields Task.Plain 6 :=
  .record
    (.field (by decide) (.required .string) <| .field (by decide) (.required .string) <|
      .field (by decide) (.optional .string) <| .field (by decide) .arguments <|
      .field (by decide) (.default Hooks.yields (by simp [Hooks.Plain, Dict.empty]) (.inl rfl)) .done)
    (fun _ _ ⟨_, _, _, harguments, hhooks, _⟩ h => ⟨h, harguments, hhooks⟩) fun _ _ => rfl

theorem Dag.yields : Dag.codec.Yields Dag.Plain 8 :=
  .record (.field (by decide) (.default (.list Task.yields) (by simp) (.inr (by simp))) .done)
    (fun _ _ hx h => ⟨h, hx.1⟩) fun _ _ => rfl

/-- A template is read as a plain one. -/
theorem Template.yields : Template.codec.Yields Template.Plain 9 :=
  .record
    (.field (by decide) (.required .string) <| .field (by decide) (.optional Container.yields) <|
      .field (by decide) (.list Volume.yields) <| .field (by decide) (.optional Dag.yields) .done)
    (fun _ _ ⟨_, hcontainer, hvolumes, hdag, _⟩ h => ⟨h, hcontainer, hvolumes, hdag⟩) fun _ _ => rfl

namespace Workflow

/-- A workflow is read as a plain one, and is written within the room it was read in, or within eleven levels. -/
theorem yields : Workflow.codec.Yields Workflow.Plain 11 :=
  .record
    (.field (by decide) (.required .string) <|
      .field (by decide) (.default (.list Template.yields) (by simp) (.inr (by simp))) .done)
    (fun _ _ ⟨_, htemplates, _⟩ h => ⟨h, htemplates⟩) fun _ _ => rfl

/-- A workflow that is read from a text with integers for numbers is plain, and its document is nested no deeper than a reader
goes. -/
theorem of_read {text : String} {w : Workflow} (h : Workflow.codec.read text = .ok w) (hint : (Json.ofText text).Integral) :
    w.Plain ∧ Workflow.codec.Within maxDepth w := by
  obtain ⟨hfits, rfl⟩ := Codec.read_eq_ok h
  obtain ⟨hplain, hwithin⟩ := yields.read hfits hint
  exact ⟨hplain, hwithin.mono (by decide)⟩

end Workflow

end WorkflowAugment

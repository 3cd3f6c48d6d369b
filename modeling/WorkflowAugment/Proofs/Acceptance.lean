import WorkflowAugment.Proofs.Json.Orderless
import WorkflowAugment.Proofs.Judging

/-!
# Which documents are accepted

The reader does what is declared: the shape of every type judges values by its declaration (`Kind.judges`), so a text is read as
a value of a type just where what it spells is acceptable, and otherwise the problem is with the data
(`Kind.read_acceptable`).
-/

namespace WorkflowAugment

/-! ## Every type -/

namespace Fields.Judge

variable {α β : Type} {name : String} {c : Codec α} {rest : Layout β} {w : Want} {fs : List Member}

/-- A member that has to be there takes what its type takes. -/
theorem required (hname : name ∉ rest.fields.names) (h : c.shape.Judges w) (hrest : rest.fields.Judge fs) :
    (Layout.field name (.required c) rest).fields.Judge (.required name w :: fs) :=
  @field (.required name w) c.shape rest.fields fs hname h hrest

/-- A member that may be left out takes what its type takes, and null. -/
theorem optional (hname : name ∉ rest.fields.names) (h : c.shape.Judges w) (hrest : rest.fields.Judge fs) :
    (Layout.field name (.optional c) rest).fields.Judge (.free name (.nullable w) :: fs) :=
  @field (.free name (.nullable w)) c.shape.nullable rest.fields fs hname h.nullable hrest

/-- A member with a default may be left out, but does not take null. -/
theorem default {a : α} {omitted : α → Bool} (hname : name ∉ rest.fields.names) (h : c.shape.Judges w)
    (hrest : rest.fields.Judge fs) :
    (Layout.field name (.default c a omitted) rest).fields.Judge (.free name w :: fs) :=
  @field (.free name w) c.shape rest.fields fs hname h hrest

/-- A list that may be left out takes values of one type. -/
theorem list (hname : name ∉ rest.fields.names) (h : c.shape.Judges w) (hrest : rest.fields.Judge fs) :
    (Layout.field name (Slot.list c) rest).fields.Judge (.free name (.list w) :: fs) :=
  default (c := .list c) hname h.list hrest

end Fields.Judge

theorem FieldSelector.judges : FieldSelector.codec.shape.Judges (.object .fieldSelector) :=
  .record (.required (by decide) .string .done)

theorem EnvVarSource.judges : EnvVarSource.codec.shape.Judges (.object .envVarSource) :=
  .record (.optional (by decide) FieldSelector.judges .done)

theorem EnvVar.judges : EnvVar.codec.shape.Judges (.object .envVar) :=
  .record
    (.required (by decide) .string <| .optional (by decide) .string <|
      .optional (by decide) EnvVarSource.judges .done)

theorem ConfigMapSource.judges : ConfigMapSource.codec.shape.Judges (.object .configMapSource) :=
  .record (.required (by decide) .string <| .optional (by decide) .bool .done)

theorem EnvFromSource.judges : EnvFromSource.codec.shape.Judges (.object .envFromSource) :=
  .record (.optional (by decide) ConfigMapSource.judges .done)

theorem SecretSource.judges : SecretSource.codec.shape.Judges (.object .secretSource) :=
  .record (.required (by decide) .string .done)

theorem Volume.judges : Volume.codec.shape.Judges (.object .volume) :=
  .record (.required (by decide) .string <| .optional (by decide) SecretSource.judges .done)

theorem VolumeMount.judges : VolumeMount.codec.shape.Judges (.object .volumeMount) :=
  .record (.required (by decide) .string <| .required (by decide) .string .done)

theorem Container.judges : Container.codec.shape.Judges (.object .container) :=
  .record
    (.required (by decide) .string <| .list (by decide) .string <| .list (by decide) .string <|
      .list (by decide) EnvVar.judges <| .list (by decide) EnvFromSource.judges <|
      .list (by decide) VolumeMount.judges .done)

theorem Parameter.judges : Parameter.codec.shape.Judges (.object .parameter) :=
  .record (.required (by decide) .string <| .optional (by decide) .string .done)

theorem Arguments.judges : Arguments.codec.shape.Judges (.object .arguments) :=
  .record (.list (by decide) Parameter.judges .done)

theorem Hook.judges : Hook.codec.shape.Judges (.object .hook) :=
  .record (.required (by decide) .string <| .default (by decide) Arguments.judges .done)

theorem Hooks.judges : Hooks.codec.shape.Judges .hooks := .hooks Hook.judges

theorem Task.judges : Task.codec.shape.Judges (.object .task) :=
  .record
    (.required (by decide) .string <| .required (by decide) .string <| .optional (by decide) .string <|
      .default (by decide) Arguments.judges <| .default (by decide) Hooks.judges .done)

theorem Dag.judges : Dag.codec.shape.Judges (.object .dag) := .record (.default (by decide) (.list Task.judges) .done)

theorem Template.judges : Template.codec.shape.Judges (.object .template) :=
  .record
    (.required (by decide) .string <| .optional (by decide) Container.judges <| .list (by decide) Volume.judges <|
      .optional (by decide) Dag.judges .done)

theorem Workflow.judges : Workflow.codec.shape.Judges (.object .workflow) :=
  .record (.required (by decide) .string <| .default (by decide) (.list Template.judges) .done)

namespace Kind

/-- Of every type the reader takes what its declaration allows. -/
theorem judges : ∀ k : Kind, k.codec.shape.Judges k.want
  | workflow => Workflow.judges
  | template => Template.judges
  | container => Container.judges
  | dag => Dag.judges
  | task => Task.judges
  | arguments => Arguments.judges
  | parameter => Parameter.judges
  | hook => Hook.judges
  | hooks => Hooks.judges
  | envVar => EnvVar.judges
  | envVarSource => EnvVarSource.judges
  | fieldSelector => FieldSelector.judges
  | envFromSource => EnvFromSource.judges
  | configMapSource => ConfigMapSource.judges
  | volume => Volume.judges
  | secretSource => SecretSource.judges
  | volumeMount => VolumeMount.judges

/-- A text that spells a value, with members in any order and repeated or not, nested no deeper than a reader goes, is read as a
value of a type just where what it spells is what the type declares. Otherwise the reading fails with a problem with the data.
If all is as declared but for one object, at any depth, that lacks required members, the problem is that the first of these in
declared order is missing. -/
theorem read_acceptable (k : Kind) {v : Json} {text : String} (htext : v.SpelledBy text) (hdepth : v.depth ≤ maxDepth) :
    ((∃ a, k.codec.read text = .ok a) ↔ Acceptable k.want v) ∧
    (¬Acceptable k.want v → ∃ p, k.codec.read text = .error p ∧ p.message?.isSome) ∧
    ∀ name, Lacks k.want v name → k.codec.read text = .error (.missingMember name) := by
  obtain ⟨hvalid, hclosed, rfl⟩ := htext
  have hfault : (Tree.scan text.toList).1.fault? maxDepth = none := hvalid.fault?_eq_none hdepth
  have haccepts : k.codec.shape.problem? maxDepth (Tree.scan text.toList).1 = none ↔ Acceptable k.want (Json.ofText text) :=
    k.judges.accepts hfault
  refine ⟨?_, fun hnot => ?_, fun name hlacks => ?_⟩
  · simp only [Codec.read_eq_ok_iff, hclosed, haccepts, true_and, exists_and_left, exists_eq', and_true]
  · obtain ⟨p, hp⟩ := Option.ne_none_iff_exists'.mp (mt haccepts.mp hnot)
    exact ⟨p, Codec.read_eq_error hp, k.judges.isData hfault hp⟩
  · exact Codec.read_eq_error (k.judges.missing hfault hlacks)

/-! ### An example -/

/-- The document of a workflow with one mount, with a null for the dag and with a repeated member that has no name. -/
def mounting (mount : Json) : Json :=
  .object
    [("templates", .array
      [.object
        [("dag", .null), ("container", .object [("volumeMounts", .array [mount]), ("image", .string "i")]),
          ("name", .string "a")]]),
      ("note", .null), ("note", .bool true), ("entrypoint", .string "a")]

/-- The document with a mount in it is acceptable if the mount is. -/
theorem acceptable_mounting {mount : Json} (h : Acceptable (.object volumeMount) mount) :
    Acceptable (.object workflow) (mounting mount) := by
  have hcontainer : Acceptable (.object container) (.object [("volumeMounts", .array [mount]), ("image", .string "i")]) := by
    refine .object ?_ ?_ ?_
    · simp [Once, members, Member.required, Member.free]
    · simp [Present, members, Member.required, Member.free]
    · simp [members, Member.required, Member.free, Acceptable.text, Acceptable.list, h]
  have htemplate : Acceptable (.object template)
      (.object
        [("dag", .null), ("container", .object [("volumeMounts", .array [mount]), ("image", .string "i")]),
          ("name", .string "a")]) := by
    refine .object ?_ ?_ ?_
    · simp [Once, members, Member.required, Member.free]
    · simp [Present, members, Member.required, Member.free]
    · simp [members, Member.required, Member.free, Acceptable.text, Acceptable.null, hcontainer.value]
  refine .object ?_ ?_ ?_
  · simp [Once, members, Member.required, Member.free]
  · simp [Present, members, Member.required, Member.free]
  · simp [members, Member.required, Member.free, Acceptable.text, Acceptable.list, htemplate]

/-- The document with a mount in it lacks what the mount lacks. -/
theorem lacks_mounting {mount : Json} {name : String} (h : Lacks (.object volumeMount) mount name) :
    Lacks (.object workflow) (mounting mount) name := by
  have hmounts : Lacks (.list (.object volumeMount)) (.array [mount]) name := @Lacks.item _ [] [] mount name h (by simp)
  have hcontainer : Lacks (.object container) (.object [("volumeMounts", .array [mount]), ("image", .string "i")]) name := by
    refine @Lacks.member container [] [("image", .string "i")] ("volumeMounts", .array [mount])
      (.free "volumeMounts" (.list (.object volumeMount))) name ?_ rfl hmounts ?_ ?_ ?_
    · simp [members]
    · simp [Once, members, Member.required, Member.free]
    · simp [Present, members, Member.required, Member.free]
    · simp [members, Member.required, Member.free, Acceptable.text]
  have htemplate : Lacks (.object template)
      (.object
        [("dag", .null), ("container", .object [("volumeMounts", .array [mount]), ("image", .string "i")]),
          ("name", .string "a")]) name := by
    refine @Lacks.member template [("dag", .null)] [("name", .string "a")] ("container", _)
      (.free "container" (.nullable (.object container))) name ?_ rfl hcontainer.value ?_ ?_ ?_
    · simp [members]
    · simp [Once, members, Member.required, Member.free]
    · simp [Present, members, Member.required, Member.free]
    · simp [members, Member.required, Member.free, Acceptable.text, Acceptable.null]
  refine @Lacks.member workflow [] [("note", .null), ("note", .bool true), ("entrypoint", .string "a")] ("templates", _)
    (.free "templates" (.list (.object template))) name ?_ rfl (@Lacks.item _ [] [] _ name htemplate (by simp)) ?_ ?_ ?_
  · simp [members]
  · simp [Once, members, Member.required, Member.free]
  · simp [Present, members, Member.required, Member.free]
  · simp [members, Member.required, Member.free, Acceptable.text]

/-- With a whole mount the document is read; without either of the members of the mount the first of them is missing. -/
theorem read_acceptable_mounting :
    (∃ w, Workflow.codec.read ((mounting (.object [("mountPath", .string "/"), ("name", .string "v")])).render true) = .ok w) ∧
    Workflow.codec.read ((mounting (.object [])).render false) = .error (.missingMember "name") := by
  have hwhole : Acceptable (.object volumeMount) (.object [("mountPath", .string "/"), ("name", .string "v")]) := by
    refine .object ?_ ?_ ?_
    · simp [Once, members, Member.required]
    · simp [Present, members, Member.required]
    · simp [members, Member.required, Acceptable.text]
  have hbare : Lacks (.object volumeMount) (.object []) "name" := by
    refine @Lacks.here volumeMount [] (.required "name" .text) rfl ?_ ?_
    · simp [Once]
    · simp
  have hint : ∀ ms, Json.IntegralMembers ms → (mounting (.object ms)).Integral := by
    intro ms h
    simp [mounting, Json.Integral, Json.IntegralItems, Json.IntegralMembers, h]
  have hdepth : ∀ ms, Json.depthMembers ms = 0 → (mounting (.object ms)).depth ≤ maxDepth := by
    intro ms h
    simp [mounting, Json.depth, Json.depthItems, Json.depthMembers, maxDepth, h]
  obtain ⟨hok, -, -⟩ := read_acceptable workflow
    (Json.spelledBy_render (hint [("mountPath", .string "/"), ("name", .string "v")] ⟨trivial, trivial, trivial⟩) true)
    (hdepth _ rfl)
  obtain ⟨-, -, herror⟩ := read_acceptable workflow (Json.spelledBy_render (hint [] trivial) false) (hdepth [] rfl)
  exact ⟨hok.mpr (acceptable_mounting hwhole), herror "name" (lacks_mounting hbare)⟩

end Kind

end WorkflowAugment

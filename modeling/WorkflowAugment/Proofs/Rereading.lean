import WorkflowAugment.Proofs.Additions
import WorkflowAugment.Proofs.Reading
import WorkflowAugment.Proofs.Verdict

/-!
# Reading what an augmentation leaves

What an augmentation adds keeps no members and is nested a few levels deep. So a plain workflow stays plain, and one whose
document a reader has room for stays so: what has been read and augmented can be written and read again
(`Workflow.read_augmented`).
-/

namespace WorkflowAugment

/-! ## The depth of documents, part by part -/

section

variable {n : Nat}

/-- A list that may be left out is within a depth if its elements are within one less. -/
@[simp] theorem Slot.within_list {α : Type} {c : Codec α} {xs : List α} :
    (Slot.list c).Within (n + 1) xs ↔ ∀ x ∈ xs, c.Within n x := by
  rw [Slot.list, within_default, Codec.within_list, List.isEmpty_iff, or_iff_right_of_imp]
  rintro rfl
  exact nofun

/-- A container is within a depth if its parts are. -/
theorem Container.within_iff {c : Container} : Container.codec.Within (n + 2) c ↔
    (∀ e ∈ c.env, EnvVar.codec.Within n e) ∧ (∀ e ∈ c.envFrom, EnvFromSource.codec.Within n e) ∧
      (∀ m ∈ c.volumeMounts, VolumeMount.codec.Within n m) ∧ c.extra.Within (n + 1) := by
  simp [Container.codec, and_assoc]

/-- A task is within a depth if its arguments and its hooks are. -/
theorem Task.within_iff {t : Task} : Task.codec.Within (n + 2) t ↔
    Slot.arguments.Within (n + 1) t.arguments ∧ (∀ e ∈ t.hooks.entries, Hook.codec.Within n e.2) ∧
      t.extra.Within (n + 1) := by
  have hhooks : t.hooks.isEmpty → ∀ e ∈ t.hooks.entries, Hook.codec.Within n e.2 := by
    intro h
    rw [List.isEmpty_iff.mp h]
    exact nofun
  simp only [Task.codec, Hooks.codec, Codec.within_record, Layout.within_field, Slot.within_required, Slot.within_optional,
    Slot.within_default, Codec.within_string, Codec.within_dictionary, or_iff_right_of_imp hhooks, Layout.within_done,
    implies_true, true_and, and_true, and_assoc]

/-- A dag is within a depth if its tasks are. -/
theorem Dag.within_iff {d : Dag} : Dag.codec.Within (n + 2) d ↔
    (∀ t ∈ d.tasks, Task.codec.Within n t) ∧ d.extra.Within (n + 1) := by
  simp [Dag.codec]

/-- A template is within a depth if its parts are. -/
theorem Template.within_iff {t : Template} : Template.codec.Within (n + 2) t ↔
    (∀ c ∈ t.container, Container.codec.Within (n + 1) c) ∧ (∀ v ∈ t.volumes, Volume.codec.Within n v) ∧
      (∀ d ∈ t.dag, Dag.codec.Within (n + 1) d) ∧ t.extra.Within (n + 1) := by
  simp [Template.codec, and_assoc]

/-- A workflow is within a depth if its templates are. -/
theorem Workflow.within_iff {w : Workflow} : Workflow.codec.Within (n + 2) w ↔
    (∀ t ∈ w.templates, Template.codec.Within n t) ∧ w.extra.Within (n + 1) := by
  simp [Workflow.codec]

end

/-! ## What is appended to a container -/

/-- All that is appended is plain and nested at most so deep as the identity of the pod. -/
structure Additions.Shallow (a : Additions) : Prop where
  env : ∀ e ∈ a.env, e.Plain ∧ EnvVar.codec.Within 3 e
  envFrom : ∀ e ∈ a.envFrom, e.Plain ∧ EnvFromSource.codec.Within 3 e
  volumeMounts : ∀ m ∈ a.volumeMounts, m.Plain ∧ VolumeMount.codec.Within 3 m
  volumes : ∀ v ∈ a.volumes, v.Plain ∧ Volume.codec.Within 3 v

namespace Additions

/-- Where nothing is appended nothing is deep. -/
theorem shallow_empty : empty.Shallow := ⟨nofun, nofun, nofun, nofun⟩

/-- Two additions that are shallow are so together. -/
theorem Shallow.append {a b : Additions} (ha : a.Shallow) (hb : b.Shallow) : (a ++ b).Shallow where
  env := List.forall_mem_append.mpr ⟨ha.env, hb.env⟩
  envFrom := List.forall_mem_append.mpr ⟨ha.envFrom, hb.envFrom⟩
  volumeMounts := List.forall_mem_append.mpr ⟨ha.volumeMounts, hb.volumeMounts⟩
  volumes := List.forall_mem_append.mpr ⟨ha.volumes, hb.volumes⟩

end Additions

/-- Where nothing is kept beside the named members nothing is deep. -/
@[simp] theorem Extra.within_empty (n : Nat) : Extra.empty.Within n := by simp [Within, entries, empty, Dict.empty]

/-- A variable with a text for its value is plain and no deeper than three levels. -/
theorem EnvVar.shallow_literal (name value : String) :
    (literal name value).Plain ∧ EnvVar.codec.Within 3 (literal name value) :=
  ⟨⟨Extra.plain_empty _, nofun⟩, by simp [literal, codec]⟩

/-- A variable that takes its value from a field of the pod is plain and no deeper than three levels. -/
theorem EnvVar.shallow_fieldRef (name path : String) :
    (fieldRef name path).Plain ∧ EnvVar.codec.Within 3 (fieldRef name path) := by
  refine ⟨⟨Extra.plain_empty _, ?_⟩, by simp [fieldRef, codec, EnvVarSource.codec, FieldSelector.codec]⟩
  rintro _ ⟨⟩
  refine ⟨Extra.plain_empty _, ?_⟩
  rintro _ ⟨⟩
  exact ⟨Extra.plain_empty _⟩

namespace Additions

/-- The variables for the identity of the pod are shallow. -/
theorem shallow_identity : identity.Shallow :=
  ⟨List.forall_mem_cons.mpr ⟨EnvVar.shallow_fieldRef _ _, List.forall_mem_singleton.mpr (EnvVar.shallow_fieldRef _ _)⟩,
    nofun, nofun, nofun⟩

/-- What connects to the metadata store is shallow. -/
theorem shallow_metadata : metadata.Shallow := by
  refine ⟨nofun, List.forall_mem_singleton.mpr ⟨⟨Extra.plain_empty _, ?_⟩, ?_⟩, nofun, nofun⟩
  · rintro _ ⟨⟩
    exact ⟨Extra.plain_empty _⟩
  · simp [EnvFromSource.configMap, EnvFromSource.codec, ConfigMapSource.codec]

end Additions

/-- What a bundle appends is shallow. -/
theorem CaBundle.shallow_additions (b : CaBundle) : b.additions.Shallow := by
  unfold additions
  split
  · refine ⟨?_, nofun, ?_, ?_⟩
    · simp only [trustVariables, List.forall_mem_cons]
      exact ⟨EnvVar.shallow_literal _ _, EnvVar.shallow_literal _ _, EnvVar.shallow_literal _ _,
        EnvVar.shallow_literal _ _, nofun⟩
    · exact List.forall_mem_singleton.mpr ⟨⟨Extra.plain_empty _⟩, by simp [VolumeMount.codec]⟩
    · refine List.forall_mem_singleton.mpr ⟨⟨Extra.plain_empty _, ?_⟩, ?_⟩
      · rintro _ ⟨⟩
        exact ⟨Extra.plain_empty _⟩
      · simp [Volume.ofSecret, Volume.codec, SecretSource.codec]
  · exact Additions.shallow_empty

/-- What the settings append is shallow. -/
theorem AugmentSettings.shallow_additions (s : AugmentSettings) : s.additions.Shallow :=
  (s.bundle.shallow_additions.append Additions.shallow_identity).append Additions.shallow_metadata

/-- The hook for the exit is plain and no deeper than four levels. -/
theorem Hook.shallow_exitHook (exit parent : String) :
    (exitHook exit parent).Plain ∧ Hook.codec.Within 4 (exitHook exit parent) := by
  refine ⟨⟨Extra.plain_empty _, Extra.plain_empty _, List.forall_mem_singleton.mpr ⟨Extra.plain_empty _⟩⟩, ?_⟩
  simp [exitHook, codec, Slot.arguments, Arguments.codec, Arguments.single, Parameter.bound, Parameter.codec]

/-! ## Templates and tasks -/

/-- A container stays plain behind shallow additions. -/
theorem Container.Plain.add {c : Container} {a : Additions} (h : c.Plain) (ha : a.Shallow) : (c.add a).Plain where
  extra := h.extra
  env := List.forall_mem_append.mpr ⟨h.env, fun e he => (ha.env e he).1⟩
  envFrom := List.forall_mem_append.mpr ⟨h.envFrom, fun e he => (ha.envFrom e he).1⟩
  volumeMounts := List.forall_mem_append.mpr ⟨h.volumeMounts, fun m hm => (ha.volumeMounts m hm).1⟩

/-- A template stays plain behind shallow additions. -/
theorem Template.Plain.add {t : Template} {a : Additions} (h : t.Plain) (ha : a.Shallow) : (t.add a).Plain := by
  cases hc : t.container with
  | none =>
    rw [add_of_none hc]
    exact h
  | some c =>
    rw [add_of_some hc]
    refine ⟨h.extra, ?_, List.forall_mem_append.mpr ⟨h.volumes, fun v hv => (ha.volumes v hv).1⟩, h.dag⟩
    rintro _ ⟨⟩
    exact (h.container c hc).add ha

/-- A task stays plain with a hook for the exit. -/
theorem Task.Plain.augmentTask {t : Task} (h : t.Plain) (s : AugmentSettings) (id : String) :
    (s.augmentTask id t).Plain := by
  rw [AugmentSettings.augmentTask, addExitHook]
  split
  · exact h
  · refine ⟨h.extra, h.arguments, fun e he => ?_⟩
    rcases Dict.mem_insertEntry he with rfl | he
    · exact (Hook.shallow_exitHook _ _).1
    · exact h.hooks e he

/-- A template stays plain with hooks for its tasks. -/
theorem Template.Plain.augmentDag {t : Template} (h : t.Plain) (s : AugmentSettings) (id : String) :
    (s.augmentDag id t).Plain := by
  refine ⟨h.extra, h.container, h.volumes, ?_⟩
  intro d hd
  obtain ⟨d, hdag, rfl⟩ := Option.map_eq_some_iff.mp hd
  have hplain := h.dag d hdag
  exact ⟨hplain.extra, List.forall_mem_map.mpr fun t ht => (hplain.tasks t ht).augmentTask s id⟩

section

variable {n : Nat}

/-- A container of at least five levels is no deeper behind shallow additions. -/
theorem Container.Within.add {c : Container} {a : Additions} (h : Container.codec.Within (n + 5) c) (ha : a.Shallow) :
    Container.codec.Within (n + 5) (c.add a) := by
  obtain ⟨henv, henvFrom, hmounts, hextra⟩ := Container.within_iff.mp h
  have hle : 3 ≤ n + 3 := Nat.le_add_left 3 n
  exact Container.within_iff.mpr
    ⟨List.forall_mem_append.mpr ⟨henv, fun e he => (ha.env e he).2.mono hle⟩,
      List.forall_mem_append.mpr ⟨henvFrom, fun e he => (ha.envFrom e he).2.mono hle⟩,
      List.forall_mem_append.mpr ⟨hmounts, fun m hm => (ha.volumeMounts m hm).2.mono hle⟩, hextra⟩

/-- A template of at least six levels is no deeper behind shallow additions. -/
theorem Template.Within.add {t : Template} {a : Additions} (h : Template.codec.Within (n + 6) t) (ha : a.Shallow) :
    Template.codec.Within (n + 6) (t.add a) := by
  cases hc : t.container with
  | none =>
    rw [add_of_none hc]
    exact h
  | some c =>
    obtain ⟨hcontainer, hvolumes, hdag, hextra⟩ := Template.within_iff.mp h
    rw [add_of_some hc]
    refine Template.within_iff.mpr ⟨?_, List.forall_mem_append.mpr
      ⟨hvolumes, fun v hv => (ha.volumes v hv).2.mono (by omega)⟩, hdag, hextra⟩
    rintro _ ⟨⟩
    exact Container.Within.add (hcontainer c hc) ha

/-- A task of at least six levels is no deeper with a hook for the exit. -/
theorem Task.Within.augmentTask {t : Task} (h : Task.codec.Within (n + 6) t) (s : AugmentSettings) (id : String) :
    Task.codec.Within (n + 6) (s.augmentTask id t) := by
  rw [AugmentSettings.augmentTask, addExitHook]
  split
  · exact h
  · obtain ⟨harguments, hhooks, hextra⟩ := Task.within_iff.mp h
    refine Task.within_iff.mpr ⟨harguments, fun e he => ?_, hextra⟩
    rcases Dict.mem_insertEntry he with rfl | he
    · exact (Hook.shallow_exitHook _ _).2.mono (Nat.le_add_left 4 n)
    · exact hhooks e he

/-- A template of at least nine levels is no deeper with hooks for its tasks. -/
theorem Template.Within.augmentDag {t : Template} (h : Template.codec.Within (n + 9) t) (s : AugmentSettings) (id : String) :
    Template.codec.Within (n + 9) (s.augmentDag id t) := by
  obtain ⟨hcontainer, hvolumes, hdag, hextra⟩ := Template.within_iff.mp h
  refine Template.within_iff.mpr ⟨hcontainer, hvolumes, ?_, hextra⟩
  intro d hd
  obtain ⟨d, hsome, rfl⟩ := Option.map_eq_some_iff.mp hd
  obtain ⟨htasks, hkept⟩ := Dag.within_iff.mp (hdag d hsome)
  exact Dag.within_iff.mpr ⟨List.forall_mem_map.mpr fun t ht => Task.Within.augmentTask (htasks t ht) s id, hkept⟩

end

/-! ## Workflows -/

namespace Workflow

variable {w : Workflow} {n : Nat}

/-- What a plan makes of a template is made by appending and by hooks. -/
theorem followAt_of {P : Template → Prop} {t : Template} {s : AugmentSettings} (h : P t)
    (hadd : ∀ t, P t → P (t.add s.additions)) (hdag : ∀ t id, P t → P (s.augmentDag id t)) (plan : Plan) (p : Nat) :
    P (followAt s plan p t) := by
  have hcontainer : P (if p ∈ plan.containers then s.augmentTemplate t else t) := by
    split
    · rw [s.augmentTemplate_eq_add]
      exact hadd t h
    · exact h
  unfold followAt
  cases plan.idAt? p with
  | none => exact hcontainer
  | some id => exact hdag _ id hcontainer

/-- Every template behind a plan is what the plan has made of one. -/
theorem mem_follow {s : AugmentSettings} {plan : Plan} {t' : Template} (h : t' ∈ (w.follow s plan).templates) :
    ∃ t ∈ w.templates, ∃ p, t' = followAt s plan p t := by
  obtain ⟨p, hp, rfl⟩ := List.mem_mapIdx.mp h
  exact ⟨_, List.getElem_mem hp, p, rfl⟩

/-- A plain workflow stays plain. -/
theorem Plain.follow (h : w.Plain) (s : AugmentSettings) (plan : Plan) : (w.follow s plan).Plain := by
  refine ⟨h.extra, fun t' ht' => ?_⟩
  obtain ⟨t, ht, p, rfl⟩ := mem_follow ht'
  exact followAt_of (h.templates t ht) (fun t h => h.add s.shallow_additions) (fun t id h => h.augmentDag s id) plan p

/-- A workflow stays as deep as it is, or as deep as a hook in it. -/
theorem Within.follow (h : Workflow.codec.Within (n + 11) w) (s : AugmentSettings) (plan : Plan) :
    Workflow.codec.Within (n + 11) (w.follow s plan) := by
  obtain ⟨htemplates, hextra⟩ := within_iff.mp h
  refine within_iff.mpr ⟨fun t' ht' => ?_, hextra⟩
  obtain ⟨t, ht, p, rfl⟩ := mem_follow ht'
  exact followAt_of (htemplates t ht) (fun t h => Template.Within.add h s.shallow_additions)
    (fun t id h => Template.Within.augmentDag h s id) plan p

/-- What an augmentation leaves of a workflow that was read can be written and is read again. -/
theorem read_augmented {text : String} (hread : Workflow.codec.read text = .ok w) (hint : (Json.ofText text).Integral)
    (s : AugmentSettings) (ids : IdSource) (root : String) (isPretty : Bool) :
    Workflow.codec.read (Workflow.codec.text isPretty (w.augment s ids root).workflow) =
      .ok (w.augment s ids root).workflow := by
  obtain ⟨hplain, hwithin⟩ := of_read hread hint
  rcases w.augment_cases s ids root with ⟨_, _, heq⟩ | ⟨_, _, plan, _, _, heq⟩
  · rw [heq]
    exact hplain.restores.read_written hwithin isPretty
  · rw [heq]
    have hroom : maxDepth = 116 + 11 := rfl
    exact (hplain.follow s plan).restores.read_written (Within.follow (hroom ▸ hwithin) s plan) isPretty

end Workflow

end WorkflowAugment

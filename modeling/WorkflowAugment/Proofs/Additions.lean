import Mathlib.Data.List.Basic
import WorkflowAugment.Augment.Injection

/-!
# What is appended

Each of the changes to a template appends to four lists, and to nothing else: the variables, their sources and the mounts of
the container, and the volumes of the template. `Additions` is what is appended to them at once, and `Template.add` appends
it. Additions one behind the other are additions again, so what becomes of a template that is augmented several times is said
by `Additions.times`.
-/

namespace WorkflowAugment

/-- What is appended to a container and to the volumes of its template. -/
structure Additions where
  env : List EnvVar
  envFrom : List EnvFromSource
  volumeMounts : List VolumeMount
  volumes : List Volume

namespace Additions

/-- Nothing. -/
def empty : Additions := ⟨[], [], [], []⟩

instance : Append Additions :=
  ⟨fun a b => ⟨a.env ++ b.env, a.envFrom ++ b.envFrom, a.volumeMounts ++ b.volumeMounts, a.volumes ++ b.volumes⟩⟩

/-- Copies of the same, one behind the other. -/
def times (a : Additions) (k : Nat) : Additions where
  env := (List.replicate k a.env).flatten
  envFrom := (List.replicate k a.envFrom).flatten
  volumeMounts := (List.replicate k a.volumeMounts).flatten
  volumes := (List.replicate k a.volumes).flatten

/-- The variables with the identity of the pod. -/
def identity : Additions := { empty with env := identityVariables }

/-- The variables of the metadata store. -/
def metadata : Additions := { empty with envFrom := [.configMap metadataConfigMap true] }

variable (a b : Additions)

@[simp] theorem env_append : (a ++ b).env = a.env ++ b.env := rfl

@[simp] theorem envFrom_append : (a ++ b).envFrom = a.envFrom ++ b.envFrom := rfl

@[simp] theorem volumeMounts_append : (a ++ b).volumeMounts = a.volumeMounts ++ b.volumeMounts := rfl

@[simp] theorem volumes_append : (a ++ b).volumes = a.volumes ++ b.volumes := rfl

@[simp] theorem times_zero : a.times 0 = empty := rfl

/-- One copy more stands behind the others. -/
theorem times_succ (k : Nat) : a.times (k + 1) = a.times k ++ a := by
  have hlast : ∀ {α : Type} (l : List α), (List.replicate (k + 1) l).flatten = (List.replicate k l).flatten ++ l := by
    intro α l
    rw [List.replicate_succ', List.flatten_append, List.flatten_singleton]
  rw [times, hlast, hlast, hlast, hlast]
  rfl

end Additions

/-- The container with what is appended to it. -/
def Container.add (c : Container) (a : Additions) : Container :=
  { c with
    env := c.env ++ a.env
    envFrom := c.envFrom ++ a.envFrom
    volumeMounts := c.volumeMounts ++ a.volumeMounts }

/-- The template with what is appended to its container and its volumes. Without a container nothing is appended. -/
def Template.add (t : Template) (a : Additions) : Template :=
  match t.container with
  | none => t
  | some c => { t with container := some (c.add a), volumes := t.volumes ++ a.volumes }

/-- A bundle is configured if its secret has a name. -/
theorem CaBundle.isConfigured_iff {b : CaBundle} : b.isConfigured ↔ b.secretName ≠ "" := by
  simp [isConfigured]

/-- What a bundle appends: its variables, the mount and the volume, or nothing without a secret. -/
def CaBundle.additions (b : CaBundle) : Additions :=
  if b.isConfigured then
    ⟨b.trustVariables, [], [⟨bundleVolume, b.mountDirectory, .empty⟩], [.ofSecret bundleVolume b.secretName]⟩
  else .empty

/-- What an augmentation appends to every container it comes to. -/
def AugmentSettings.additions (s : AugmentSettings) : Additions := s.bundle.additions ++ .identity ++ .metadata

/-! ## Appending -/

/-- To append nothing leaves a container as it is. -/
@[simp] theorem Container.add_empty (c : Container) : c.add .empty = c := by
  simp [add, Additions.empty]

/-- To append twice is to append both at once. -/
theorem Container.add_add (c : Container) (a b : Additions) : (c.add a).add b = c.add (a ++ b) := by
  simp [add]

namespace Template

variable {t : Template}

/-- To a template without a container nothing is appended. -/
theorem add_of_none (h : t.container = none) (a : Additions) : t.add a = t := by
  rw [add, h]

/-- To a template with a container what belongs there is appended to the container, and volumes to the template. -/
theorem add_of_some {c : Container} (h : t.container = some c) (a : Additions) :
    t.add a = { t with container := some (c.add a), volumes := t.volumes ++ a.volumes } := by
  rw [add, h]

/-- To append nothing leaves a template as it is. -/
@[simp] theorem add_empty (t : Template) : t.add .empty = t := by
  cases h : t.container with
  | none => exact add_of_none h _
  | some c =>
    rw [add_of_some h, Container.add_empty, ← h, Additions.empty, List.append_nil]

/-- Appending twice is appending once, the two one behind the other. -/
theorem add_add (t : Template) (a b : Additions) : (t.add a).add b = t.add (a ++ b) := by
  cases h : t.container with
  | none => rw [add_of_none h, add_of_none h, add_of_none h]
  | some c =>
    rw [add_of_some h, add_of_some h, add_of_some rfl, Container.add_add]
    simp

end Template

/-! ## What the changes append -/

/-- The bundle appends its additions, which are none unless it is configured. -/
theorem CaBundle.addTo_eq_add (b : CaBundle) (t : Template) : b.addTo t = t.add b.additions := by
  unfold addTo additions
  split
  · cases h : t.container with
    | none => rw [Template.add_of_none h]
    | some c => simp [Template.add_of_some h, Container.add, addToContainer]
  · rw [Template.add_empty]

/-- A change to the container that appends to it, and has no volume to go with it, is an addition. -/
theorem Template.mapContainer_eq_add {f : Container → Container} {a : Additions} (hf : ∀ c, f c = c.add a)
    (ha : a.volumes = []) (t : Template) : t.mapContainer f = t.add a := by
  obtain ⟨name, container, volumes, dag, extra⟩ := t
  cases container with
  | none => rfl
  | some c => simp [mapContainer, add, hf, ha]

/-- The identity of the pod appends its variables. -/
theorem Template.addIdentity_eq_add (t : Template) : t.addIdentity = t.add .identity := by
  refine mapContainer_eq_add (fun c => ?_) rfl t
  simp [Container.add, Additions.identity, Additions.empty]

/-- The connection to the metadata store appends its variables. -/
theorem Template.addMetadata_eq_add (t : Template) : t.addMetadata = t.add .metadata := by
  refine mapContainer_eq_add (fun c => ?_) rfl t
  simp [Container.add, Additions.metadata, Additions.empty]

/-- Of the mounts that an augmentation appends none is there but that of the bundle. -/
theorem AugmentSettings.volumeMounts_additions (s : AugmentSettings) :
    s.additions.volumeMounts =
      if s.bundle.isConfigured then [⟨bundleVolume, s.bundle.mountDirectory, .empty⟩] else [] := by
  unfold additions CaBundle.additions
  split <;> rfl

/-- Of the volumes that an augmentation appends none is there but that of the bundle. -/
theorem AugmentSettings.volumes_additions (s : AugmentSettings) :
    s.additions.volumes = if s.bundle.isConfigured then [.ofSecret bundleVolume s.bundle.secretName] else [] := by
  unfold additions CaBundle.additions
  split <;> rfl

/-- An augmentation appends to a template what there is to append, all of it at once. -/
theorem AugmentSettings.augmentTemplate_eq_add (s : AugmentSettings) (t : Template) :
    s.augmentTemplate t = t.add s.additions := by
  rw [augmentTemplate, CaBundle.addTo_eq_add, Template.addIdentity_eq_add, Template.addMetadata_eq_add,
    Template.add_add t, Template.add_add t, additions]

end WorkflowAugment

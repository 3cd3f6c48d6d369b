import WorkflowAugment.Augment.Event
import WorkflowAugment.Manifest.Workflow
import WorkflowAugment.Settings.Augment

/-!
# What is added to templates and tasks

A template with a container gets the CA bundle, the identity of its pod and the connection to the metadata store; a task
gets a hook for its end. Additions go behind what is there and look at nothing that is there: doing one twice adds it
twice. Beside each change stand the events that it makes known.
-/

namespace WorkflowAugment

/-! ### The CA bundle -/

/-- The volume that holds the secret with the bundle, and its mount. -/
def bundleVolume : String := "ca-secret"

/-- The directories with the certificates of the system. -/
def systemDirectories : List String := ["/etc/ssl/certs", "/etc/pki/tls/certs"]

namespace CaBundle

/-- Where certificates are looked for: next to the bundle first, then among those of the system. -/
def searchPath (b : CaBundle) : String := ":".intercalate (b.mountDirectory :: systemDirectories)

/-- The variables through which programs are told of the bundle. -/
def trustVariables (b : CaBundle) : List EnvVar :=
  [.literal "REQUESTS_CA_BUNDLE" b.path, .literal "AWS_CA_BUNDLE" b.path, .literal "SSL_CERT_FILE" b.path,
    .literal "SSL_CERT_DIR" b.searchPath]

/-- The container with the variables and the mount. -/
def addToContainer (b : CaBundle) (c : Container) : Container :=
  { c with
    env := c.env ++ b.trustVariables
    volumeMounts := c.volumeMounts ++ [⟨bundleVolume, b.mountDirectory, .empty⟩] }

/-- The template with the bundle in its container and the secret among its volumes. Without a secret, or without a
container, nothing is added. -/
def addTo (b : CaBundle) (t : Template) : Template :=
  if b.isConfigured then
    match t.container with
    | none => t
    | some c =>
      { t with
        container := some (b.addToContainer c)
        volumes := t.volumes ++ [.ofSecret bundleVolume b.secretName] }
  else t

/-- The events of `addTo`. -/
def events (b : CaBundle) (t : Template) : List Event :=
  if b.isConfigured then
    match t.container with
    | none => [.bundleSkipped t.name]
    | some _ => [.bundleConfigured t.name b.secretName b.mountDirectory]
  else []

end CaBundle

/-! ### The identity of the pod and the metadata store -/

/-- The variables with the name and the unique identifier of the pod. -/
def identityVariables : List EnvVar := [.fieldRef "KFP_POD_NAME" podNameField, .fieldRef "KFP_POD_UID" podUidField]

/-- The ConfigMap with the connection to the metadata store. -/
def metadataConfigMap : String := "metadata-grpc-configmap"

namespace Template

/-- The template with its container changed, if it has one. -/
def mapContainer (t : Template) (f : Container → Container) : Template :=
  { t with container := t.container.map f }

/-- The template with the identity of the pod in its container. -/
def addIdentity (t : Template) : Template := t.mapContainer fun c => { c with env := c.env ++ identityVariables }

/-- The events of `addIdentity`. -/
def identityEvents (t : Template) : List Event := if t.container.isSome then [.identityAdded t.name] else []

/-- The template with the variables of the metadata store in its container, if there are any at run time. -/
def addMetadata (t : Template) : Template :=
  t.mapContainer fun c => { c with envFrom := c.envFrom ++ [.configMap metadataConfigMap true] }

/-- The events of `addMetadata`. -/
def metadataEvents (t : Template) : List Event :=
  if t.container.isSome then [.metadataAdded t.name metadataConfigMap] else []

end Template

/-! ### The hook for the end of a task -/

/-- The parameter that tells the exit template which invocation of a dag the task belongs to. -/
def parentParameter : String := "parent-dag-id"

/-- The hook that invokes the exit template. -/
def exitHook (exit parent : String) : Hook := ⟨exit, .single parentParameter parent, .empty⟩

namespace Task

/-- The task with the exit hook instead of any it had. Without an exit template the task stays as it is. -/
def addExitHook (t : Task) (exit parent : String) : Task :=
  if exit = "" then t else { t with hooks := t.hooks.setExit (exitHook exit parent) }

/-- The events of `addExitHook`. -/
def exitHookEvents (t : Task) (exit parent : String) : List Event :=
  if exit = "" then []
  else (t.hooks.exit?.elim [] fun h => [.hookReplaced t.name h.template]) ++ [.hookAttached t.name parent]

end Task

/-! ### All of it, by the settings -/

namespace AugmentSettings

/-- Everything that is added to a template. -/
def augmentTemplate (s : AugmentSettings) (t : Template) : Template := (s.bundle.addTo t).addIdentity.addMetadata

/-- The events of `augmentTemplate`. -/
def templateEvents (s : AugmentSettings) (t : Template) : List Event :=
  s.bundle.events t ++ t.identityEvents ++ t.metadataEvents

/-- Tasks get exit hooks. -/
def attaches (s : AugmentSettings) : Bool := s.exitTemplate ≠ ""

/-- Everything that is added to a task of the invocation `parent` of a dag. -/
def augmentTask (s : AugmentSettings) (parent : String) (t : Task) : Task := t.addExitHook s.exitTemplate parent

/-- The events of `augmentTask`. -/
def taskEvents (s : AugmentSettings) (parent : String) (t : Task) : List Event :=
  t.exitHookEvents s.exitTemplate parent

end AugmentSettings

/-! ### What stays as it is -/

namespace CaBundle

variable (b : CaBundle) (t : Template)

/-- The bundle is added to a container if a secret is set, and otherwise not at all. -/
theorem addTo_cases :
    b.addTo t = t ∨ ∃ c, t.container = some c ∧
      b.addTo t = { t with
        container := some (b.addToContainer c)
        volumes := t.volumes ++ [.ofSecret bundleVolume b.secretName] } := by
  unfold addTo
  split
  · cases h : t.container with
    | none => exact Or.inl rfl
    | some c => exact Or.inr ⟨c, rfl, rfl⟩
  · exact Or.inl rfl

@[simp] theorem name_addTo : (b.addTo t).name = t.name := by
  rcases b.addTo_cases t with h | ⟨c, _, h⟩ <;> rw [h]

@[simp] theorem dag_addTo : (b.addTo t).dag = t.dag := by
  rcases b.addTo_cases t with h | ⟨c, _, h⟩ <;> rw [h]

@[simp] theorem extra_addTo : (b.addTo t).extra = t.extra := by
  rcases b.addTo_cases t with h | ⟨c, _, h⟩ <;> rw [h]

/-- The bundle makes no container and removes none. -/
@[simp] theorem isSome_container_addTo : (b.addTo t).container.isSome = t.container.isSome := by
  rcases b.addTo_cases t with h | ⟨c, hc, h⟩ <;> rw [h]
  rw [hc]
  rfl

end CaBundle

namespace AugmentSettings

variable (s : AugmentSettings)

@[simp] theorem name_augmentTemplate (t : Template) : (s.augmentTemplate t).name = t.name := by
  simp [augmentTemplate, Template.addIdentity, Template.addMetadata, Template.mapContainer]

@[simp] theorem dag_augmentTemplate (t : Template) : (s.augmentTemplate t).dag = t.dag := by
  simp [augmentTemplate, Template.addIdentity, Template.addMetadata, Template.mapContainer]

@[simp] theorem extra_augmentTemplate (t : Template) : (s.augmentTemplate t).extra = t.extra := by
  simp [augmentTemplate, Template.addIdentity, Template.addMetadata, Template.mapContainer]

/-- To augment a template makes no container and removes none. -/
@[simp] theorem isSome_container_augmentTemplate (t : Template) :
    (s.augmentTemplate t).container.isSome = t.container.isSome := by
  simp [augmentTemplate, Template.addIdentity, Template.addMetadata, Template.mapContainer]

/-- What becomes known of a template depends only on its name and on whether it has a container. -/
theorem templateEvents_congr {t u : Template} (hname : t.name = u.name)
    (hcontainer : t.container.isSome = u.container.isSome) : s.templateEvents t = s.templateEvents u := by
  unfold templateEvents CaBundle.events Template.identityEvents Template.metadataEvents
  rw [hname, hcontainer]
  cases ht : t.container <;> cases hu : u.container <;> simp_all

/-- What is added to a template does not depend on its dag, which stays in it. -/
theorem augmentTemplate_withDag (t : Template) (dag : Option Dag) :
    s.augmentTemplate { t with dag := dag } = { s.augmentTemplate t with dag := dag } := by
  unfold augmentTemplate CaBundle.addTo
  split
  · cases h : t.container <;> simp [Template.addIdentity, Template.addMetadata, Template.mapContainer, h]
  · rfl

@[simp] theorem name_augmentTask (parent : String) (t : Task) : (s.augmentTask parent t).name = t.name := by
  unfold augmentTask Task.addExitHook
  split <;> rfl

@[simp] theorem template_augmentTask (parent : String) (t : Task) : (s.augmentTask parent t).template = t.template := by
  unfold augmentTask Task.addExitHook
  split <;> rfl

end AugmentSettings

end WorkflowAugment

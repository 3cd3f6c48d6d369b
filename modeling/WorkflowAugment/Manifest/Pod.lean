import WorkflowAugment.Json.Codec

/-!
# Containers and what they are given

The parts of a workflow document that describe a pod: environment variables and where they come from, volumes and their
mounts, and the container itself. Every type keeps the members that it has no name for.
-/

namespace WorkflowAugment

/-- The field of the pod that holds its name. -/
def podNameField : String := "metadata.name"

/-- The field of the pod that holds its unique identifier. -/
def podUidField : String := "metadata.uid"

/-- A field of the pod, by its path. -/
structure FieldSelector where
  fieldPath : String
  extra : Extra
deriving Inhabited

/-- Where the value of a variable comes from. -/
structure EnvVarSource where
  fieldRef : Option FieldSelector
  extra : Extra
deriving Inhabited

/-- An environment variable. -/
structure EnvVar where
  name : String
  value : Option String
  valueFrom : Option EnvVarSource
  extra : Extra
deriving Inhabited

namespace EnvVar

/-- A variable with a value. -/
def literal (name value : String) : EnvVar := ⟨name, some value, none, .empty⟩

/-- A variable that takes its value from a field of the pod. -/
def fieldRef (name fieldPath : String) : EnvVar := ⟨name, none, some ⟨some ⟨fieldPath, .empty⟩, .empty⟩, .empty⟩

/-- The field of the pod that the variable refers to. -/
def fieldPath (e : EnvVar) : Option String := e.valueFrom.bind fun s => s.fieldRef.map (·.fieldPath)

end EnvVar

/-- A ConfigMap whose entries become variables. -/
structure ConfigMapSource where
  name : String
  optional : Option Bool
  extra : Extra
deriving Inhabited

/-- A source of several variables at once. -/
structure EnvFromSource where
  configMapRef : Option ConfigMapSource
  extra : Extra
deriving Inhabited

/-- The variables of a ConfigMap, which may be absent if it is optional. -/
def EnvFromSource.configMap (name : String) (optional : Bool) : EnvFromSource :=
  ⟨some ⟨name, some optional, .empty⟩, .empty⟩

/-- A secret as the content of a volume. -/
structure SecretSource where
  secretName : String
  extra : Extra
deriving Inhabited

/-- A volume of a template. -/
structure Volume where
  name : String
  secret : Option SecretSource
  extra : Extra
deriving Inhabited

/-- A volume that holds a secret. -/
def Volume.ofSecret (name secretName : String) : Volume := ⟨name, some ⟨secretName, .empty⟩, .empty⟩

/-- The place in a container where a volume appears. -/
structure VolumeMount where
  name : String
  mountPath : String
  extra : Extra
deriving Inhabited

/-- The container of a template. -/
structure Container where
  image : String
  command : List String
  args : List String
  env : List EnvVar
  envFrom : List EnvFromSource
  volumeMounts : List VolumeMount
  extra : Extra
deriving Inhabited

namespace Container

/-- A container of which only the image is given. -/
def ofImage (image : String) : Container := ⟨image, [], [], [], [], [], .empty⟩

/-- All entries for a variable, in order. -/
def envNamed (c : Container) (name : String) : List EnvVar := c.env.filter (·.name = name)

/-- The value that a variable effectively has: that of its last entry, if this gives one. -/
def envValue (c : Container) (name : String) : Option String := (c.envNamed name).getLast?.bind (·.value)

end Container

/-! ### Their documents -/

/-- The document of a field selector. -/
def FieldSelector.codec : Codec FieldSelector :=
  .record "ObjectFieldSelector" (.field "fieldPath" (.required .string) .done)
    (fun (fieldPath, _) extra => ⟨fieldPath, extra⟩) fun s => ((s.fieldPath, ()), s.extra)

/-- The document of the source of a variable. -/
def EnvVarSource.codec : Codec EnvVarSource :=
  .record "EnvVarSource" (.field "fieldRef" (.optional FieldSelector.codec) .done)
    (fun (fieldRef, _) extra => ⟨fieldRef, extra⟩) fun s => ((s.fieldRef, ()), s.extra)

/-- The document of a variable. -/
def EnvVar.codec : Codec EnvVar :=
  .record "EnvVar"
    (.field "name" (.required .string) <| .field "value" (.optional .string) <|
      .field "valueFrom" (.optional EnvVarSource.codec) .done)
    (fun (name, value, valueFrom, _) extra => ⟨name, value, valueFrom, extra⟩)
    fun e => ((e.name, e.value, e.valueFrom, ()), e.extra)

/-- The document of a ConfigMap source. -/
def ConfigMapSource.codec : Codec ConfigMapSource :=
  .record "ConfigMapEnvSource"
    (.field "name" (.required .string) <| .field "optional" (.optional .bool) .done)
    (fun (name, optional, _) extra => ⟨name, optional, extra⟩)
    fun s => ((s.name, s.optional, ()), s.extra)

/-- The document of a source of several variables. -/
def EnvFromSource.codec : Codec EnvFromSource :=
  .record "EnvFromSource" (.field "configMapRef" (.optional ConfigMapSource.codec) .done)
    (fun (configMapRef, _) extra => ⟨configMapRef, extra⟩) fun s => ((s.configMapRef, ()), s.extra)

/-- The document of a secret source. -/
def SecretSource.codec : Codec SecretSource :=
  .record "SecretVolumeSource" (.field "secretName" (.required .string) .done)
    (fun (secretName, _) extra => ⟨secretName, extra⟩) fun s => ((s.secretName, ()), s.extra)

/-- The document of a volume. -/
def Volume.codec : Codec Volume :=
  .record "Volume"
    (.field "name" (.required .string) <| .field "secret" (.optional SecretSource.codec) .done)
    (fun (name, secret, _) extra => ⟨name, secret, extra⟩)
    fun v => ((v.name, v.secret, ()), v.extra)

/-- The document of a mount. -/
def VolumeMount.codec : Codec VolumeMount :=
  .record "VolumeMount"
    (.field "name" (.required .string) <| .field "mountPath" (.required .string) .done)
    (fun (name, mountPath, _) extra => ⟨name, mountPath, extra⟩)
    fun m => ((m.name, m.mountPath, ()), m.extra)

/-- A list that is left out when it is empty. -/
def Slot.list {α : Type} (c : Codec α) : Slot (List α) := .default (.list c) [] List.isEmpty

/-- The document of a container. -/
def Container.codec : Codec Container :=
  .record "Container"
    (.field "image" (.required .string) <| .field "command" (.list .string) <| .field "args" (.list .string) <|
      .field "env" (.list EnvVar.codec) <| .field "envFrom" (.list EnvFromSource.codec) <|
      .field "volumeMounts" (.list VolumeMount.codec) .done)
    (fun (image, command, args, env, envFrom, volumeMounts, _) extra =>
      ⟨image, command, args, env, envFrom, volumeMounts, extra⟩)
    fun c => ((c.image, c.command, c.args, c.env, c.envFrom, c.volumeMounts, ()), c.extra)

end WorkflowAugment

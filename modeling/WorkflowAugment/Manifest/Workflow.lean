import WorkflowAugment.Manifest.Pod
import WorkflowAugment.Manifest.Task

/-!
# Templates and workflows

A template is something that can be invoked: it runs a container, or a dag of tasks, or both. A workflow is a list of
templates and the name of the one to start with. References between templates go by name, so a workflow can be walked
only if no name is given twice; `Workflow.index` checks that and finds the position of each name.
-/

namespace WorkflowAugment

/-- A template of a workflow. -/
structure Template where
  name : String
  container : Option Container
  volumes : List Volume
  dag : Option Dag
  extra : Extra
deriving Inhabited

/-- A workflow document. -/
structure Workflow where
  entrypoint : String
  templates : List Template
  extra : Extra
deriving Inhabited

/-- What can be wrong with a document that reads well. -/
inductive ManifestError where
  | danglingMount (template mount : String)
  | ambiguousMount (template mount : String) (count : Nat)
  | duplicateTemplate (name : String)
deriving DecidableEq

/-- The text of the error. -/
def ManifestError.message : ManifestError → String
  | .danglingMount t m => "template '" ++ t ++ "': volume mount '" ++ m ++ "' has no matching volume"
  | .ambiguousMount t m n =>
    "template '" ++ t ++ "': volume mount '" ++ m ++ "' matches " ++ toString n ++ " volumes"
  | .duplicateTemplate n => "duplicate template name: " ++ n

namespace Template

/-- A template that runs a container. -/
def ofContainer (name : String) (container : Container) : Template := ⟨name, some container, [], none, .empty⟩

/-- A template that runs a dag. -/
def ofDag (name : String) (dag : Dag) : Template := ⟨name, none, [], some dag, .empty⟩

/-- The template runs a dag. -/
def isDag (t : Template) : Bool := t.dag.isSome

/-- The tasks of the dag of the template, if it has one. -/
def tasks (t : Template) : List Task := t.dag.elim [] (·.tasks)

/-- How many volumes of the template a mount names. -/
def matchCount (t : Template) (m : VolumeMount) : Nat := (t.volumes.filter (·.name = m.name)).length

/-- What is wrong with a mount, if it does not name exactly one volume of the template. -/
def mountError? (t : Template) (m : VolumeMount) : Option ManifestError :=
  match t.matchCount m with
  | 0 => some (.danglingMount t.name m.name)
  | 1 => none
  | n => some (.ambiguousMount t.name m.name n)

/-- Every mount of the container names exactly one volume; otherwise what is wrong with the first that does not. -/
def checkMounts (t : Template) : Except ManifestError Unit :=
  match (t.container.elim [] (·.volumeMounts)).findSome? t.mountError? with
  | none => .ok ()
  | some e => .error e

end Template

namespace Workflow

/-- A workflow of which only the start and the templates are given. -/
def ofTemplates (entrypoint : String) (templates : List Template) : Workflow := ⟨entrypoint, templates, .empty⟩

/-- The first template of a name. -/
def template? (w : Workflow) (name : String) : Option Template := w.templates.find? (·.name = name)

/-- The names of templates with their positions, the first one being at position `n`, if none is among those met before
and none is given twice; otherwise the first one of which that is not so. -/
def indexFrom (n : Nat) (met : List (String × Nat)) : List Template → Except ManifestError (List (String × Nat))
  | [] => .ok met
  | t :: ts =>
    if (met.lookup t.name).isSome then .error (.duplicateTemplate t.name)
    else indexFrom (n + 1) (met ++ [(t.name, n)]) ts

/-- The position of every template by its name. -/
def index (w : Workflow) : Except ManifestError (List (String × Nat)) := indexFrom 0 [] w.templates

end Workflow

/-! ### Their documents -/

/-- The document of a template. -/
def Template.codec : Codec Template :=
  .record "Template"
    (.field "name" (.required .string) <| .field "container" (.optional Container.codec) <|
      .field "volumes" (.list Volume.codec) <| .field "dag" (.optional Dag.codec) .done)
    (fun (name, container, volumes, dag, _) extra => ⟨name, container, volumes, dag, extra⟩)
    fun t => ((t.name, t.container, t.volumes, t.dag, ()), t.extra)

/-- The document of a workflow, which always lists its templates. -/
def Workflow.codec : Codec Workflow :=
  .record "Workflow"
    (.field "entrypoint" (.required .string) <|
      .field "templates" (.default (.list Template.codec) [] fun _ => false) .done)
    (fun (entrypoint, templates, _) extra => ⟨entrypoint, templates, extra⟩)
    fun w => ((w.entrypoint, w.templates, ()), w.extra)

end WorkflowAugment

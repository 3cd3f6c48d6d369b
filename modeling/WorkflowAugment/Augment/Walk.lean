import WorkflowAugment.Augment.Check
import WorkflowAugment.Augment.Injection

/-!
# Augmenting a workflow

An augmentation first checks that the workflow can be walked, and then walks it from the entrypoint along the tasks. The
walk changes the workflow as it goes: a container is augmented when the walk first comes to it, and a dag is entered once,
as the invocation that it is first met by. A walk that ends early leaves what it has changed by then.
-/

namespace WorkflowAugment

/-- How the identifier of a nested invocation follows from that of the enclosing one and the task that invokes it. -/
abbrev IdSource : Type := String → Task → String

namespace IdSource

/-- The identifier that the driver of the task makes known when it runs. -/
def driver : IdSource := fun _ t => "\x7b\x7btasks." ++ t.name ++ ".outputs.parameters.execution-id\x7d\x7d"

/-- The names of the tasks on the way, with slashes between them. -/
def path : IdSource := fun parent t => parent ++ "/" ++ t.name

/-- The name of the template that is invoked. -/
def template : IdSource := fun _ t => t.template

end IdSource

/-! ### The tasks of one dag -/

/-- What comes of giving the tasks of a dag their hooks one after another, up to the first that invokes nothing there is:
the tasks as they stand then, the hooks attached, what became known, and what the tasks invoke, with an identifier each. -/
structure Sweep where
  tasks : List Task
  hooks : Nat
  events : List Event
  children : Except Halt (List (Nat × String))

/-- The sweep over the tasks of the invocation `id` of a dag. A task is asked for the identifier of what it invokes with its
own hook in place. -/
def Sweep.across (index : Index) (s : AugmentSettings) (ids : IdSource) (id : String) : List Task → Sweep
  | [] => ⟨[], 0, [], .ok []⟩
  | t :: ts =>
    let hooked := s.augmentTask id t
    let attached := if s.attaches then 1 else 0
    match index.resolve hooked with
    | .error h => ⟨hooked :: ts, attached, s.taskEvents id t, .error h⟩
    | .ok child =>
      let rest := across index s ids id ts
      ⟨hooked :: rest.tasks, attached + rest.hooks, s.taskEvents id t ++ rest.events,
        rest.children.map ((child, ids id hooked) :: ·)⟩

/-! ### The walk -/

/-- The workflow with another template at a position. -/
def Workflow.setTemplate (w : Workflow) (pos : Nat) (t : Template) : Workflow :=
  { w with templates := w.templates.set pos t }

/-- A walk under way: the workflow as it stands, the containers and the dags the walk has been to, by their positions, what
it has touched and what it has made known. -/
structure Walk where
  workflow : Workflow
  containers : List Nat
  dags : List Nat
  report : Report
  events : List Event

namespace Walk

/-- The walk that is about to begin. -/
def ofWorkflow (w : Workflow) : Walk := ⟨w, [], [], ⟨0, 0, 0⟩, []⟩

/-- The walk at a position: a container there is augmented if the walk has not been to it. -/
def meetContainer (s : AugmentSettings) (pos : Nat) (walk : Walk) : Walk :=
  match walk.workflow.templates[pos]? with
  | none => walk
  | some t =>
    if t.container.isSome ∧ pos ∉ walk.containers then
      { walk with
        workflow := walk.workflow.setTemplate pos (s.augmentTemplate t)
        containers := walk.containers ++ [pos]
        report := { walk.report with containers := walk.report.containers + 1 }
        events := walk.events ++ s.templateEvents t }
    else walk

/-- The walk that comes back to a dag and leaves it as it is. -/
def meetAgain (t : Template) (walk : Walk) : Walk := { walk with events := walk.events ++ [.dagMetAgain t.name] }

/-- The walk that has entered a dag as the invocation `id` and gone over its tasks. -/
def enterDag (pos : Nat) (id : String) (t : Template) (dag : Dag) (sweep : Sweep) (walk : Walk) : Walk :=
  { walk with
    workflow := walk.workflow.setTemplate pos { t with dag := some { dag with tasks := sweep.tasks } }
    dags := walk.dags ++ [pos]
    report := { walk.report with hooks := walk.report.hooks + sweep.hooks }
    events := walk.events ++ .dagEntered t.name id dag.tasks.length :: sweep.events }

/-- The walk with one dag more in its report. -/
def countDag (walk : Walk) : Walk := { walk with report := { walk.report with dags := walk.report.dags + 1 } }

/-- A visit to a position as part of the invocation `id`. What the tasks of a dag invoke is noted for all of them before the
first is followed. -/
def visit (index : Index) (s : AugmentSettings) (ids : IdSource) : Nat → Nat → String → EStateM Halt Walk Unit
  | 0, _, _ => throw .exhausted
  | budget + 1, pos, id => do
    modify (meetContainer s pos)
    let walk ← get
    match walk.workflow.templates[pos]? with
    | none => return
    | some t =>
      match t.dag with
      | none => return
      | some dag =>
        if pos ∈ walk.dags then set (walk.meetAgain t)
        else do
          let sweep := Sweep.across index s ids id dag.tasks
          set (walk.enterDag pos id t dag sweep)
          match sweep.children with
          | .error h => throw h
          | .ok children => do
            modify countDag
            children.forM fun child => visit index s ids budget child.1 child.2

end Walk

/-! ### The whole -/

/-- What comes of an augmentation: the workflow afterwards, the report or the error, and what became known. -/
structure Augmentation where
  workflow : Workflow
  result : Except AugmentError Report
  span : Span
  events : List Event

namespace Workflow

/-- Where a walk starts, if the workflow can be walked: the positions of all names and that of the entrypoint. -/
def walkable (w : Workflow) : Except AugmentError (Index × Nat) := do
  let index ← w.index.mapError .manifest
  let start ← (index.lookup w.entrypoint).elim
    (.error (.unknownTemplate .entrypoint w.entrypoint)) .ok
  let _ ← (w.checkDag index w.depthBudget start ⟨[], []⟩).mapError (Halt.toError w.entrypoint)
  return (index, start)

/-- Augments everything that is reached from the entrypoint, `root` being the identifier of its invocation. -/
def augment (w : Workflow) (s : AugmentSettings) (ids : IdSource) (root : String) : Augmentation :=
  let span := augmentSpan root w.entrypoint
  match w.walkable with
  | .error e => ⟨w, .error e, span, []⟩
  | .ok (index, start) =>
    match Walk.visit index s ids w.depthBudget start root (.ofWorkflow w) with
    | .error h walk => ⟨walk.workflow, .error (h.toError w.entrypoint), span, walk.events⟩
    | .ok _ walk => ⟨walk.workflow, .ok walk.report, span, walk.events ++ [.finished walk.report]⟩

end Workflow

end WorkflowAugment

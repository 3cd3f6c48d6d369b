import WorkflowAugment.Json.Codec
import WorkflowAugment.Manifest.Pod

/-!
# Tasks and dags

A dag is a list of tasks; a task invokes a template by name, with arguments, and has hooks that invoke further templates
on the events of its life.
-/

namespace WorkflowAugment

/-- The event at the end of a task, whatever its outcome. -/
def exitEvent : String := "exit"

/-- A parameter, bound to a value or not. -/
structure Parameter where
  name : String
  value : Option String
  extra : Extra
deriving Inhabited

namespace Parameter

/-- A parameter with a value. -/
def bound (name value : String) : Parameter := ⟨name, some value, .empty⟩

/-- A parameter without a value. -/
def unbound (name : String) : Parameter := ⟨name, none, .empty⟩

end Parameter

/-- The arguments of an invocation. -/
structure Arguments where
  parameters : List Parameter
  extra : Extra
deriving Inhabited

namespace Arguments

/-- No arguments. -/
def empty : Arguments := ⟨[], .empty⟩

/-- One bound parameter. -/
def single (name value : String) : Arguments := ⟨[.bound name value], .empty⟩

/-- How many parameters there are. -/
def size (a : Arguments) : Nat := a.parameters.length

/-- There is nothing to pass, be it a parameter or a member without a name here. -/
def isEmpty (a : Arguments) : Bool := a.parameters.isEmpty && a.extra.isEmpty

/-- The value of the first parameter of that name. -/
def get? (a : Arguments) (name : String) : Option String :=
  (a.parameters.find? (·.name = name)).bind (·.value)

/-- One parameter more, at the end. -/
def push (a : Arguments) (p : Parameter) : Arguments := { a with parameters := a.parameters ++ [p] }

end Arguments

/-- What a hook invokes. -/
structure Hook where
  template : String
  arguments : Arguments
  extra : Extra
deriving Inhabited

/-- The hooks of a task by event. -/
abbrev Hooks : Type := Dict Hook

namespace Hooks

/-- The hook for the end of the task. -/
def exit? (h : Hooks) : Option Hook := h.get? exitEvent

/-- The hooks with a new one for the end of the task. -/
def setExit (h : Hooks) (hook : Hook) : Hooks := h.insert exitEvent hook

/-- The hook for the end of the task that a new one takes the place of, if any, and the hooks with the new one. -/
def replaceExit (h : Hooks) (hook : Hook) : Option Hook × Hooks := h.replace exitEvent hook

end Hooks

/-- A task of a dag. -/
structure Task where
  name : String
  template : String
  depends : Option String
  arguments : Arguments
  hooks : Hooks
  extra : Extra
deriving Inhabited

/-- A task that invokes a template and has nothing else. -/
def Task.invoking (name template : String) : Task := ⟨name, template, none, .empty, .empty, .empty⟩

/-- The dag of a template. -/
structure Dag where
  tasks : List Task
  extra : Extra
deriving Inhabited

/-- A dag of which only the tasks are given. -/
def Dag.ofTasks (tasks : List Task) : Dag := ⟨tasks, .empty⟩

/-! ### Their documents -/

/-- The document of a parameter. -/
def Parameter.codec : Codec Parameter :=
  .record "Parameter"
    (.field "name" (.required .string) <| .field "value" (.optional .string) .done)
    (fun (name, value, _) extra => ⟨name, value, extra⟩)
    fun p => ((p.name, p.value, ()), p.extra)

/-- The document of arguments. -/
def Arguments.codec : Codec Arguments :=
  .record "Arguments" (.field "parameters" (.list Parameter.codec) .done)
    (fun (parameters, _) extra => ⟨parameters, extra⟩) fun a => ((a.parameters, ()), a.extra)

/-- Arguments that are left out when there is nothing to pass. -/
def Slot.arguments : Slot Arguments := .default Arguments.codec .empty Arguments.isEmpty

/-- The document of a hook. -/
def Hook.codec : Codec Hook :=
  .record "LifecycleHook"
    (.field "template" (.required .string) <| .field "arguments" .arguments .done)
    (fun (template, arguments, _) extra => ⟨template, arguments, extra⟩)
    fun h => ((h.template, h.arguments, ()), h.extra)

/-- The document of hooks: an object from events to hooks. -/
def Hooks.codec : Codec Hooks := .dictionary Hook.codec

/-- The document of a task. -/
def Task.codec : Codec Task :=
  .record "DagTask"
    (.field "name" (.required .string) <| .field "template" (.required .string) <|
      .field "depends" (.optional .string) <| .field "arguments" .arguments <|
      .field "hooks" (.default Hooks.codec .empty Dict.isEmpty) .done)
    (fun (name, template, depends, arguments, hooks, _) extra => ⟨name, template, depends, arguments, hooks, extra⟩)
    fun t => ((t.name, t.template, t.depends, t.arguments, t.hooks, ()), t.extra)

/-- The document of a dag, which always lists its tasks. -/
def Dag.codec : Codec Dag :=
  .record "DagTemplate" (.field "tasks" (.default (.list Task.codec) [] fun _ => false) .done)
    (fun (tasks, _) extra => ⟨tasks, extra⟩) fun d => ((d.tasks, ()), d.extra)

end WorkflowAugment

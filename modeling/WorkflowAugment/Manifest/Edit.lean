import WorkflowAugment.Manifest.Workflow

/-!
# Changing a workflow by name

A template or a task is addressed by its name, and of several with one name the first is meant. `modifyFirst` changes it
and leaves all else; the look-ups say which part of an address names nothing.
-/

namespace WorkflowAugment

/-- The list with its first element of a kind changed. -/
def modifyFirst {α : Type} (p : α → Bool) (f : α → α) : List α → List α
  | [] => []
  | x :: xs => if p x then f x :: xs else x :: modifyFirst p f xs

/-- A part of an address that names nothing. -/
inductive Absent where
  | template
  | task
  | container
deriving DecidableEq

namespace Template

/-- The first task of a name in the dag of the template. -/
def task? (t : Template) (name : String) : Option Task := t.tasks.find? (·.name = name)

/-- The template with its first task of a name changed. -/
def modifyTask (t : Template) (name : String) (f : Task → Task) : Template :=
  { t with dag := t.dag.map fun d => { d with tasks := modifyFirst (·.name = name) f d.tasks } }

end Template

namespace Workflow

/-- The first template of a name. -/
def templateAt (w : Workflow) (name : String) : Except Absent Template :=
  (w.template? name).elim (.error .template) .ok

/-- The first task of a name in the first template of a name. -/
def taskAt (w : Workflow) (template task : String) : Except Absent Task := do
  ((← w.templateAt template).task? task).elim (.error .task) .ok

/-- The container of the first template of a name. -/
def containerAt (w : Workflow) (template : String) : Except Absent Container := do
  (← w.templateAt template).container.elim (.error .container) .ok

/-- The workflow with its first template of a name changed. -/
def modifyTemplate (w : Workflow) (name : String) (f : Template → Template) : Workflow :=
  { w with templates := modifyFirst (·.name = name) f w.templates }

/-- The workflow with one template more, at the end. -/
def push (w : Workflow) (t : Template) : Workflow := { w with templates := w.templates ++ [t] }

/-- The workflow with the template instead of the first one of its name, or at the end if there is none. -/
def put (w : Workflow) (t : Template) : Workflow :=
  if (w.template? t.name).isSome then w.modifyTemplate t.name fun _ => t else w.push t

/-- The workflow without the templates of a name. -/
def removeTemplate (w : Workflow) (name : String) : Workflow :=
  { w with templates := w.templates.filter (·.name ≠ name) }

end Workflow

end WorkflowAugment

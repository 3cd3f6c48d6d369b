import WorkflowAugment.Manifest.Workflow

/-!
# Which workflows can be walked

A workflow can be walked if its templates have different names, the one to start with exists, every task of every dag
that is reached invokes an existing template, and no dag that is reached invokes itself, be it through others. Templates
are known by their positions. `checkDag` searches from one position, dags on the current path and dags searched before
being marked; it takes a budget for the depth of its recursion.
-/

namespace WorkflowAugment

/-- Who refers to a template. -/
inductive Referrer where
  | entrypoint
  | task (name : String)
deriving DecidableEq

/-- How a message names the referrer. -/
def Referrer.describe : Referrer → String
  | .entrypoint => "entrypoint"
  | .task name => "task '" ++ name ++ "'"

/-- Why a workflow cannot be augmented. -/
inductive AugmentError where
  | manifest (e : ManifestError)
  | unknownTemplate (referrer : Referrer) (template : String)
  | dagCycle (template : String)
deriving DecidableEq

/-- The text of the error. -/
def AugmentError.message : AugmentError → String
  | .manifest e => "invalid workflow: " ++ e.message
  | .unknownTemplate r t => r.describe ++ " references unknown template '" ++ t ++ "'"
  | .dagCycle t => "dag template '" ++ t ++ "' is reachable from itself"

/-- Why a recursion over the dags ended early: an error, or its budget for the depth. -/
inductive Halt where
  | error (e : AugmentError)
  | exhausted
deriving DecidableEq

/-- The error of a recursion that ended early. A chain of more dags than there are repeats one, so a spent budget, which
does not occur with as much as is given here, counts as a cycle. -/
def Halt.toError (entrypoint : String) : Halt → AugmentError
  | .error e => e
  | .exhausted => .dagCycle entrypoint

/-- The position of every template by its name. -/
abbrev Index : Type := List (String × Nat)

/-- The position of the template that a task invokes. -/
def Index.resolve (index : Index) (t : Task) : Except Halt Nat :=
  match index.lookup t.template with
  | some pos => .ok pos
  | none => .error (.error (.unknownTemplate (.task t.name) t.template))

/-- Dags on the path that is being searched, and all dags met so far. -/
structure Marks where
  onPath : List Nat
  seen : List Nat
deriving DecidableEq

namespace Workflow

/-- How many templates have a dag. -/
def dagCount (w : Workflow) : Nat := w.templates.countP Template.isDag

/-- A depth that no recursion over the dags exceeds: every dag once, and a last call that finds nothing to do. -/
def depthBudget (w : Workflow) : Nat := w.dagCount + 1

/-- The marks after a search from a position, if no fault is found on the way. All tasks of a dag are resolved before
the first of them is followed. -/
def checkDag (w : Workflow) (index : Index) : Nat → Nat → Marks → Except Halt Marks
  | 0, _, _ => .error .exhausted
  | budget + 1, pos, marks =>
    match w.templates[pos]? with
    | none => .ok marks
    | some t =>
      match t.dag with
      | none => .ok marks
      | some dag =>
        if pos ∈ marks.onPath then .error (.error (.dagCycle t.name))
        else if pos ∈ marks.seen then .ok marks
        else do
          let children ← dag.tasks.mapM index.resolve
          let marks ← children.foldlM (fun marks child => w.checkDag index budget child marks)
            ⟨pos :: marks.onPath, pos :: marks.seen⟩
          return { marks with onPath := marks.onPath.erase pos }

end Workflow

end WorkflowAugment

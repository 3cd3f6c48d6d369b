import WorkflowAugment.Log.Record

/-!
# What an augmentation does, as events

Every change that is made, and every one that is left out for a reason, is an event. `Event.record` says how an event
stands in the log.
-/

namespace WorkflowAugment

/-- How much an augmentation touched: templates with a container, dags, and hooks attached. -/
structure Report where
  containers : Nat
  dags : Nat
  hooks : Nat
deriving DecidableEq, Repr

/-- The report in words. -/
def Report.display (r : Report) : String :=
  "containers=" ++ toString r.containers ++ " dags=" ++ toString r.dags ++ " hooks=" ++ toString r.hooks

/-- One thing that an augmentation did, or left out. -/
inductive Event where
  | bundleSkipped (template : String)
  | bundleConfigured (template secret mountPath : String)
  | identityAdded (template : String)
  | metadataAdded (template configMap : String)
  | hookReplaced (task replaced : String)
  | hookAttached (task parent : String)
  | dagEntered (template id : String) (tasks : Nat)
  | dagMetAgain (template : String)
  | finished (report : Report)
deriving DecidableEq

namespace Event

/-- The event in the log. -/
def record : Event → Record
  | .bundleSkipped t =>
    ⟨.trace, "pipec_augment::trust", "no container, ca bundle skipped", [("template", .display t)]⟩
  | .bundleConfigured t secret mountPath =>
    ⟨.trace, "pipec_augment::trust", "ca bundle configured",
      [("template", .display t), ("secret", .text secret), ("mount_path", .display mountPath)]⟩
  | .identityAdded t =>
    ⟨.trace, "pipec_augment::identity", "identity env added", [("template", .display t)]⟩
  | .metadataAdded t configMap =>
    ⟨.trace, "pipec_augment::identity", "metadata env source added",
      [("template", .display t), ("configmap", .text configMap)]⟩
  | .hookReplaced task replaced =>
    ⟨.debug, "pipec_augment::exit_hook", "exit hook replaced",
      [("task", .display task), ("replaced", .display replaced)]⟩
  | .hookAttached task parent =>
    ⟨.trace, "pipec_augment::exit_hook", "exit hook attached",
      [("task", .display task), ("parent_dag_id", .text parent)]⟩
  | .dagEntered t id tasks =>
    ⟨.trace, "pipec_augment::walker", "walking dag",
      [("template", .display t), ("dag_id", .text id), ("tasks", .count tasks)]⟩
  | .dagMetAgain t =>
    ⟨.debug, "pipec_augment::walker", "dag template already walked", [("template", .display t)]⟩
  | .finished report =>
    ⟨.debug, "pipec_augment::walker", "workflow augmented", [("report", .display report.display)]⟩

end Event

/-- The span of an augmentation. -/
def augmentSpan (root entrypoint : String) : Span :=
  ⟨.debug, "pipec_augment::walker", "augment", [("root_dag_id", .text root), ("entrypoint", .display entrypoint)]⟩

end WorkflowAugment

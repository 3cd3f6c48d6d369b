import WorkflowAugment.Proofs.Growth

/-!
# Sequences of changes

The changes to a workflow are those to one template, those to one task, and an augmentation of the whole. `Workflow.perform`
makes changes one after another. Each lets the workflow grow (`growsTo_apply`), so a sequence of them does, and whether the
workflow can be augmented is decided before the first (`growsTo_perform`).
-/

namespace WorkflowAugment

/-- The changes that can be made to a workflow. Templates and their tasks are addressed by position; where there is none,
nothing is changed. -/
inductive Operation where
  | addBundle (pos : Nat) (bundle : CaBundle)
  | addIdentity (pos : Nat)
  | addMetadata (pos : Nat)
  | augmentTemplate (pos : Nat) (s : AugmentSettings)
  | addExitHook (pos task : Nat) (exit parent : String)
  | augmentTask (pos task : Nat) (s : AugmentSettings) (parent : String)
  | augment (s : AugmentSettings) (ids : IdSource) (root : String)

/-- The template with the task at a position changed. -/
def Template.modifyTaskAt (t : Template) (task : Nat) (f : Task → Task) : Template :=
  { t with dag := t.dag.map fun d => { d with tasks := d.tasks.modify task f } }

namespace Workflow

/-- The workflow with the template at a position changed. -/
def modifyAt (w : Workflow) (pos : Nat) (f : Template → Template) : Workflow :=
  { w with templates := w.templates.modify pos f }

/-- The workflow after one change. -/
def apply (w : Workflow) : Operation → Workflow
  | .addBundle pos bundle => w.modifyAt pos bundle.addTo
  | .addIdentity pos => w.modifyAt pos Template.addIdentity
  | .addMetadata pos => w.modifyAt pos Template.addMetadata
  | .augmentTemplate pos s => w.modifyAt pos s.augmentTemplate
  | .addExitHook pos task exit parent => w.modifyAt pos fun t => t.modifyTaskAt task (·.addExitHook exit parent)
  | .augmentTask pos task s parent => w.modifyAt pos fun t => t.modifyTaskAt task (s.augmentTask parent)
  | .augment s ids root => (w.augment s ids root).workflow

/-- The workflow after changes made one after another. -/
def perform (w : Workflow) (ops : List Operation) : Workflow := ops.foldl apply w

/-- A workflow in which one template grows has grown. -/
theorem growsTo_modifyAt (w : Workflow) (pos : Nat) {f : Template → Template} (hf : ∀ t : Template, t.GrowsTo (f t)) :
    w.GrowsTo (w.modifyAt pos f) :=
  ⟨rfl, rfl, forall₂_modify Template.GrowsTo.refl hf w.templates pos⟩

/-- A workflow in which one task gets an exit hook has grown. -/
theorem growsTo_modifyTaskAt (w : Workflow) (pos task : Nat) (exit parent : String) :
    w.GrowsTo (w.modifyAt pos fun t => t.modifyTaskAt task (·.addExitHook exit parent)) := by
  refine w.growsTo_modifyAt pos fun t => t.growsTo_mapTasks fun ts => ?_
  exact forall₂_modify Task.GrowsTo.refl (fun t => t.growsTo_addExitHook exit parent) ts task

/-- Every change lets a workflow grow. -/
theorem growsTo_apply (w : Workflow) (op : Operation) : w.GrowsTo (w.apply op) := by
  cases op with
  | addBundle pos bundle =>
    refine w.growsTo_modifyAt pos fun t => ?_
    rw [CaBundle.addTo_eq_add]
    exact t.growsTo_add (Additions.balanced_bundle bundle)
  | addIdentity pos =>
    refine w.growsTo_modifyAt pos fun t => ?_
    rw [Template.addIdentity_eq_add]
    exact t.growsTo_add Additions.balanced_identity
  | addMetadata pos =>
    refine w.growsTo_modifyAt pos fun t => ?_
    rw [Template.addMetadata_eq_add]
    exact t.growsTo_add Additions.balanced_metadata
  | augmentTemplate pos s =>
    refine w.growsTo_modifyAt pos fun t => ?_
    rw [AugmentSettings.augmentTemplate_eq_add]
    exact t.growsTo_add (Additions.balanced_settings s)
  | addExitHook pos task exit parent => exact w.growsTo_modifyTaskAt pos task exit parent
  | augmentTask pos task s parent => exact w.growsTo_modifyTaskAt pos task s.exitTemplate parent
  | augment s ids root => exact w.growsTo_augment s ids root

/-- Changes made one after another let a workflow grow. -/
theorem growsTo_foldl (ops : List Operation) : ∀ w : Workflow, w.GrowsTo (w.perform ops) := by
  induction ops with
  | nil => exact .refl
  | cons op ops ih => exact fun w => (w.growsTo_apply op).trans (ih (w.apply op))

/-- Operations one after another are the first ones and then the others. -/
theorem perform_append (w : Workflow) (ops more : List Operation) :
    w.perform (ops ++ more) = (w.perform ops).perform more :=
  List.foldl_append

/-- Whatever changes are made to a workflow, with whatever arguments and in whatever order, it grows from each point of the
sequence to the end: nothing is taken away or moved, and volumes and mounts of the bundle come in equal number and only where
there is a container. At each point an augmentation goes through, or fails with one and the same error, as it does before the
first change. -/
theorem growsTo_perform (w : Workflow) (ops : List Operation) :
    w.GrowsTo (w.perform ops) ∧
    ∀ before, before <+: ops →
      (w.perform before).GrowsTo (w.perform ops) ∧
      ∀ (s s' : AugmentSettings) (ids ids' : IdSource) (root root' : String),
        ((w.perform before).augment s ids root).verdict = (w.augment s' ids' root').verdict := by
  refine ⟨growsTo_foldl ops w, ?_⟩
  rintro before ⟨after, rfl⟩
  refine ⟨?_, ?_⟩
  · rw [perform_append]
    exact growsTo_foldl after (w.perform before)
  · intro s s' ids ids' root root'
    rw [verdict_augment, verdict_augment, (growsTo_foldl before w).walkable_eq]

end Workflow

end WorkflowAugment

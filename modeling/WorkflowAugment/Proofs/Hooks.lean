import Mathlib.Data.List.Forall2
import WorkflowAugment.Proofs.Preorder
import WorkflowAugment.Proofs.Verdict

/-!
# Which invocation a hook names

Every task of a dag that is reached has a hook for its end that names the invocation of the dag. The invocation of the
entrypoint is the root; that of any other dag comes from the first call in depth-first order that leads to it, whatever the
way identifiers are made (`augment_hooks`).
-/

namespace WorkflowAugment

/-- The task with the hook for its end that tells the exit template of an invocation, and otherwise as it was. -/
structure Task.Hooked (exit id : String) (t t' : Task) : Prop where
  exitHook : t'.hooks.get? "exit" = some ⟨exit, ⟨[⟨"parent-dag-id", some id, .empty⟩], .empty⟩, .empty⟩
  otherHooks : ∀ event, event ≠ "exit" → t'.hooks.get? event = t.hooks.get? event
  name : t'.name = t.name
  template : t'.template = t.template
  depends : t'.depends = t.depends
  arguments : t'.arguments = t.arguments
  extra : t'.extra = t.extra

/-- With an exit template, a task gets its hook. -/
theorem AugmentSettings.hooked_augmentTask {s : AugmentSettings} (hexit : s.exitTemplate ≠ "") (id : String) (t : Task) :
    t.Hooked s.exitTemplate id (s.augmentTask id t) := by
  rw [augmentTask, Task.addExitHook, if_neg hexit]
  refine ⟨?_, ?_, rfl, rfl, rfl, rfl, rfl⟩
  · rw [Hooks.setExit, exitEvent, Dict.get?_insert, if_pos rfl]
    rfl
  · intro event hevent
    rw [Hooks.setExit, exitEvent, Dict.get?_insert, if_neg (Ne.symm hevent)]

namespace Workflow

variable {w : Workflow} {s : AugmentSettings} {ids : IdSource} {root : String}

/-- Carrying a plan out attaches hooks to the tasks of every dag that it enters. -/
theorem hooked_followAt {plan : Plan} {p : Nat} {t : Template} {id : String} (hexit : s.exitTemplate ≠ "")
    (hid : plan.idAt? p = some id) :
    List.Forall₂ (Task.Hooked s.exitTemplate id) t.tasks (followAt s plan p t).tasks := by
  have htasks : (followAt s plan p t).tasks = t.tasks.map (s.augmentTask id) := by
    rw [Template.tasks, dag_followAt_of_idAt? hid, Template.tasks]
    cases t.dag <;> rfl
  rw [htasks, List.forall₂_map_right_iff, List.forall₂_same]
  intro task _
  exact AugmentSettings.hooked_augmentTask hexit id task

/-- With an exit template, an augmentation that goes through gives every dag that is reached one identifier, and every task
of the dag a hook that names it. The dag of the entrypoint has the identifier of the root. Any other has the one that the
source makes of the first call that leads to the dag in depth-first order, from the identifier of the caller and the task
with its own hook in place. -/
theorem augment_hooks {r : Report} (hexit : s.exitTemplate ≠ "") (h : (w.augment s ids root).result = .ok r) :
    ∃ id : Nat → String,
      (∀ p t, w.templates[p]? = some t → t.name = w.entrypoint → t.isDag → id p = root) ∧
      (∀ d t, w.Reaches d → w.templates[d]? = some t → t.isDag → t.name ≠ w.entrypoint →
        ∃ p u task, w.Reaches p ∧ w.templates[p]? = some u ∧ task ∈ u.tasks ∧
          w.preorder.find? (·.task.template = t.name) = some ⟨p, task⟩ ∧ id d = ids (id p) (s.augmentTask (id p) task)) ∧
      ∀ d t, w.Reaches d → w.templates[d]? = some t → t.isDag →
        ∃ t', (w.augment s ids root).workflow.templates[d]? = some t' ∧
          List.Forall₂ (Task.Hooked s.exitTemplate (id d)) t.tasks t'.tasks := by
  obtain ⟨index, start, u, plan, hI, hu, hname, hplan, hafter⟩ := augment_ok h
  obtain ⟨hgrown, hcovers⟩ := planFrom_grown hI _ hplan
  obtain ⟨hroot, hfirst⟩ := planFrom_first hI hu hname hplan
  have hentered : ∀ {d t}, w.Reaches d → w.templates[d]? = some t → t.isDag → d ∈ plan.dags := by
    intro d t hreach ht hdag
    exact (hgrown.mem_dags_iff hcovers ht).mpr ⟨hdag, (hI.reaches_iff hu hname).mp hreach⟩
  refine ⟨plan.idAt, ?_, ?_, ?_⟩
  · intro p t ht hentry hdag
    have hp : w.Reaches p := ⟨p, t, ht, hentry, .refl⟩
    have hsame : p = start := hI.eq_of_name ht hu (hentry.trans hname.symm)
    subst hsame
    exact Plan.idAt_of_idAt? (hroot (hentered hp ht hdag))
  · intro d t hreach ht hdag hne
    have hds : d ≠ start := by
      rintro rfl
      rw [hu] at ht
      cases ht
      exact hne hname
    obtain ⟨call, parent, hfind, hparent, hd⟩ := hfirst d t ht hdag (hentered hreach ht hdag) hds
    obtain ⟨v, hv, htask⟩ := mem_preorder (List.mem_of_find?_eq_some hfind)
    have hcaller : call.caller ∈ plan.dags := by
      by_contra hnot
      rw [Plan.idAt?_eq_none_iff.mpr hnot] at hparent
      cases hparent
    refine ⟨call.caller, v, call.task, ?_, hv, htask, hfind, ?_⟩
    · exact (hI.reaches_iff hu hname).mpr ((hgrown.mem_dags_iff hcovers hv).mp hcaller).2
    · rw [Plan.idAt_of_idAt? hd, Plan.idAt_of_idAt? hparent]
  · intro d t hreach ht hdag
    refine ⟨followAt s plan d t, by rw [hafter, getElem?_follow, ht]; rfl, ?_⟩
    cases hd : plan.idAt? d with
    | none => exact absurd (hentered hreach ht hdag) (Plan.idAt?_eq_none_iff.mp hd)
    | some id =>
      rw [Plan.idAt_of_idAt? hd]
      exact hooked_followAt hexit hd

/-- In the example the shared dag is entered as the invocation of the call that is met first. -/
theorem augment_hooks_sharing :
    AugmentSettings.exitTemplate ⟨.disabled, ⟨"", ""⟩, some "notify"⟩ ≠ "" ∧
    (sharing.augment ⟨.disabled, ⟨"", ""⟩, some "notify"⟩ .path "root").result = .ok ⟨1, 3, 5⟩ ∧
    ∃ id : Nat → String, id 0 = "root" ∧
      (∃ p task, sharing.preorder.find? (·.task.template = "shared") = some ⟨p, task⟩ ∧
        id 2 = IdSource.path (id p) (AugmentSettings.augmentTask ⟨.disabled, ⟨"", ""⟩, some "notify"⟩ (id p) task)) ∧
      ∃ t', (sharing.augment ⟨.disabled, ⟨"", ""⟩, some "notify"⟩ .path "root").workflow.templates[2]? = some t' ∧
        List.Forall₂ (Task.Hooked "notify" (id 2)) [.invoking "work" "leaf"] t'.tasks := by
  have hexit : AugmentSettings.exitTemplate ⟨.disabled, ⟨"", ""⟩, some "notify"⟩ ≠ "" := by decide
  have hok : (sharing.augment ⟨.disabled, ⟨"", ""⟩, some "notify"⟩ .path "root").result = .ok ⟨1, 3, 5⟩ := rfl
  have hreach : sharing.Reaches 2 :=
    ⟨0, _, rfl, rfl, .single ⟨_, _, rfl, rfl, _, List.mem_of_getElem? (i := 1) rfl, rfl⟩⟩
  obtain ⟨id, hroot, hfirst, hhooked⟩ := augment_hooks hexit hok
  obtain ⟨p, _, task, _, _, _, hfind, hid⟩ := hfirst 2 _ hreach rfl rfl (by decide)
  exact ⟨hexit, hok, id, hroot 0 _ rfl rfl rfl, ⟨p, task, hfind, hid⟩, hhooked 2 _ hreach rfl rfl⟩

end Workflow

end WorkflowAugment

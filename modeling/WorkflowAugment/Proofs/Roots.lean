import WorkflowAugment.Proofs.Hooks
import WorkflowAugment.Proofs.Outline
import WorkflowAugment.Proofs.Tally

/-!
# How far the identifier of the root goes

If nested invocations are named by their drivers, the identifier of the root reaches the tasks of the entrypoint and no
others: the tasks of any other dag name the driver of a task that invokes the dag, whatever the root is called
(`idAt?_driver`). `augment_roots` compares two augmentations that differ in the root alone.
-/

namespace WorkflowAugment

/-! ## Agreement but for one hook -/

/-- The tasks are the same, but their exit hooks name two invocations. -/
structure Task.AgreesBut (exit id id' : String) (t t' : Task) : Prop where
  exitHook : t.hooks.get? "exit" = some ⟨exit, ⟨[⟨"parent-dag-id", some id, .empty⟩], .empty⟩, .empty⟩
  exitHook' : t'.hooks.get? "exit" = some ⟨exit, ⟨[⟨"parent-dag-id", some id', .empty⟩], .empty⟩, .empty⟩
  otherHooks : ∀ event, event ≠ "exit" → t'.hooks.get? event = t.hooks.get? event
  name : t'.name = t.name
  template : t'.template = t.template
  depends : t'.depends = t.depends
  arguments : t'.arguments = t.arguments
  extra : t'.extra = t.extra

/-- The templates are the same, but the exit hooks of their tasks name two invocations. -/
structure Template.AgreesBut (exit id id' : String) (t t' : Template) : Prop where
  name : t'.name = t.name
  container : t'.container = t.container
  volumes : t'.volumes = t.volumes
  dag : Option.Rel (fun d d' => d'.extra = d.extra ∧ List.Forall₂ (Task.AgreesBut exit id id') d.tasks d'.tasks)
    t.dag t'.dag
  extra : t'.extra = t.extra

/-- The workflows are the same, but the exit hooks of the tasks of the entrypoint name two invocations. -/
structure Workflow.AgreesBut (exit id id' : String) (w w' : Workflow) : Prop where
  entrypoint : w'.entrypoint = w.entrypoint
  extra : w'.extra = w.extra
  templates : List.Forall₂ (fun t t' => if t.name = w.entrypoint then t.AgreesBut exit id id' t' else t = t')
    w.templates w'.templates

/-- A task agrees with itself but for its exit hook, if it gets one for each of two invocations. -/
theorem Task.Hooked.agreesBut {exit id id' : String} {t t₁ t₂ : Task} (h : t.Hooked exit id t₁)
    (h' : t.Hooked exit id' t₂) : t₁.AgreesBut exit id id' t₂ where
  exitHook := h.exitHook
  exitHook' := h'.exitHook
  otherHooks event hevent := (h'.otherHooks event hevent).trans (h.otherHooks event hevent).symm
  name := h'.name.trans h.name.symm
  template := h'.template.trans h.template.symm
  depends := h'.depends.trans h.depends.symm
  arguments := h'.arguments.trans h.arguments.symm
  extra := h'.extra.trans h.extra.symm

/-- Without an exit template no task is changed. -/
theorem AugmentSettings.augmentDag_of_exit_eq {s : AugmentSettings} (hexit : s.exitTemplate = "") (id : String)
    (t : Template) : s.augmentDag id t = t := by
  have htask : s.augmentTask id = fun task => task := by
    funext task
    rw [augmentTask, Task.addExitHook, if_pos hexit]
  obtain ⟨name, container, volumes, dag, extra⟩ := t
  simp [augmentDag, htask]

namespace Plan

variable {w : Workflow} {plan : Plan} {start p : Nat}

/-- Where a plan enters a dag, there is one. -/
theorem Grown.exists_dag (h : Grown w start [] plan) (hp : p ∈ plan.dags) :
    ∃ t, w.templates[p]? = some t ∧ t.isDag ∧ Relation.ReflTransGen w.Invokes start p := by
  obtain ⟨id, hid⟩ := Plan.mem_dags_iff.mp hp
  rcases h.reached _ hid with hnil | ⟨t, ht, hsuits, hreach⟩
  · cases hnil
  · exact ⟨t, ht, hsuits, hreach⟩

/-- A dag with an identifier is entered. -/
theorem mem_dags_of_idAt? {id : String} (h : plan.idAt? p = some id) : p ∈ plan.dags := by
  by_contra hnot
  rw [Plan.idAt?_eq_none_iff.mpr hnot] at h
  cases h

end Plan

namespace Workflow

variable {w : Workflow} {index : Index} {s : AugmentSettings} {plan plan' : Plan} {start p : Nat} {u t : Template}
  {root root' : String} {budget : Nat}

/-- Plans that augment the same containers and enter the same dags touch as much. -/
theorem planReport_congr (w : Workflow) (s : AugmentSettings) (hcontainers : plan.containers = plan'.containers)
    (hdags : plan.dags = plan'.dags) : w.planReport s plan = w.planReport s plan' := by
  rw [planReport, planReport, sum_stepHooks, sum_stepHooks, hcontainers, hdags]

/-- The template at the start is the one that is called like the entrypoint. -/
theorem IndexedBy.name_eq_entrypoint_iff (hI : w.IndexedBy index) (hu : w.templates[start]? = some u)
    (hname : u.name = w.entrypoint) (ht : w.templates[p]? = some t) : t.name = w.entrypoint ↔ p = start := by
  constructor
  · intro hentry
    exact hI.eq_of_name ht hu (hentry.trans hname.symm)
  · rintro rfl
    rw [hu] at ht
    cases ht
    exact hname

/-- Without an exit template it makes no difference which identifiers a plan gives to dags. -/
theorem follow_congr_of_exit_eq (hexit : s.exitTemplate = "") (hcontainers : plan.containers = plan'.containers) :
    w.follow s plan = w.follow s plan' := by
  have hpod : ∀ (plan : Plan) (p : Nat) (t : Template),
      followAt s plan p t = if p ∈ plan.containers then s.augmentTemplate t else t := by
    intro plan p t
    rw [followAt]
    cases plan.idAt? p with
    | none => rfl
    | some id => exact AugmentSettings.augmentDag_of_exit_eq hexit id _
  have hsame : followAt s plan = followAt s plan' := by
    funext p t
    rw [hpod, hpod, hcontainers]
  rw [follow, follow, hsame]

/-! ## The identifiers of nested dags -/

/-- A dag other than that of the start is named by the driver of a task that invokes it. Which task that is, the order of
calls decides, and neither the root nor the settings do. -/
theorem idAt?_driver (hI : w.IndexedBy index) (hu : w.templates[start]? = some u) (hname : u.name = w.entrypoint)
    (hplan : w.planFrom index s .driver budget start root [] = .ok plan) (ht : w.templates[p]? = some t)
    (hp : p ∈ plan.dags) (hne : p ≠ start) :
    ∃ call v, w.preorder.find? (·.task.template = t.name) = some call ∧ w.Reaches call.caller ∧
      w.templates[call.caller]? = some v ∧ call.task ∈ v.tasks ∧ call.task.template = t.name ∧
      plan.idAt? p = some ("\x7b\x7btasks." ++ call.task.name ++ ".outputs.parameters.execution-id\x7d\x7d") := by
  obtain ⟨hgrown, hcovers⟩ := planFrom_grown hI _ hplan
  obtain ⟨t', ht', hdag, -⟩ := hgrown.exists_dag hp
  rw [ht] at ht'
  cases ht'
  obtain ⟨call, parent, hfind, hparent, hid⟩ := (planFrom_first hI hu hname hplan).2 p t ht hdag hp hne
  obtain ⟨v, hv, htask⟩ := mem_preorder (List.mem_of_find?_eq_some hfind)
  obtain ⟨_, _, _, hreach⟩ := hgrown.exists_dag (Plan.mem_dags_of_idAt? hparent)
  refine ⟨call, v, hfind, (hI.reaches_iff hu hname).mpr hreach, hv, htask, by simpa using List.find?_some hfind, ?_⟩
  rw [hid, IdSource.driver, AugmentSettings.name_augmentTask]

/-- Plans from two roots make the same of every template but the first. -/
theorem followAt_driver_congr (hI : w.IndexedBy index) (hu : w.templates[start]? = some u) (hname : u.name = w.entrypoint)
    (hplan : w.planFrom index s .driver budget start root [] = .ok plan)
    (hplan' : w.planFrom index s .driver budget start root' [] = .ok plan') (hne : p ≠ start) (t : Template) :
    followAt s plan p t = followAt s plan' p t := by
  obtain ⟨hcontainers, hdags⟩ := planFrom_route hplan hplan'
  refine followAt_congr (by rw [hcontainers]) ?_
  by_cases hp : p ∈ plan.dags
  · obtain ⟨v, hv, -, -⟩ := (planFrom_grown hI _ hplan).1.exists_dag hp
    obtain ⟨call, _, hfind, _, _, _, _, hid⟩ := idAt?_driver hI hu hname hplan hv hp hne
    obtain ⟨call', _, hfind', _, _, _, _, hid'⟩ := idAt?_driver hI hu hname hplan' hv (hdags ▸ hp) hne
    rw [hfind] at hfind'
    cases hfind'
    rw [hid, hid']
  · have hp' : p ∉ plan'.dags := hdags ▸ hp
    rw [Plan.idAt?_eq_none_iff.mpr hp, Plan.idAt?_eq_none_iff.mpr hp']

/-- Plans from two roots make the same of the first template, but the hooks of its tasks name the one root and the other. -/
theorem agreesBut_followAt_start {ids : IdSource} (hI : w.IndexedBy index) (hexit : s.exitTemplate ≠ "")
    (hu : w.templates[start]? = some u) (hname : u.name = w.entrypoint)
    (hplan : w.planFrom index s ids budget start root [] = .ok plan)
    (hplan' : w.planFrom index s ids budget start root' [] = .ok plan') :
    (followAt s plan start u).AgreesBut s.exitTemplate root root' (followAt s plan' start u) := by
  obtain ⟨hcontainers, hdags⟩ := planFrom_route hplan hplan'
  have hpod : (followAt s plan' start u).container = (followAt s plan start u).container ∧
      (followAt s plan' start u).volumes = (followAt s plan start u).volumes := by
    by_cases hp : start ∈ plan.containers
    · rw [(container_followAt_of_mem hp).1, (container_followAt_of_mem hp).2]
      exact container_followAt_of_mem (hcontainers ▸ hp)
    · rw [(container_followAt_of_notMem hp).1, (container_followAt_of_notMem hp).2]
      exact container_followAt_of_notMem (hcontainers ▸ hp)
  refine ⟨by simp, hpod.1, hpod.2, ?_, by simp⟩
  by_cases hd : start ∈ plan.dags
  · have hroot := (planFrom_first hI hu hname hplan).1 hd
    have hroot' := (planFrom_first hI hu hname hplan').1 (hdags ▸ hd)
    rw [dag_followAt_of_idAt? hroot, dag_followAt_of_idAt? hroot']
    cases u.dag with
    | none => exact .none
    | some d =>
      refine .some ⟨rfl, ?_⟩
      rw [List.forall₂_map_left_iff, List.forall₂_map_right_iff, List.forall₂_same]
      intro task _
      exact (AugmentSettings.hooked_augmentTask hexit root task).agreesBut
        (AugmentSettings.hooked_augmentTask hexit root' task)
  · have hnone : u.dag = none := by
      by_contra hne
      exact hd ((planFrom_grown hI _ hplan).2.dag u hu (Option.isSome_iff_ne_none.mpr hne))
    rw [dag_followAt_of_notMem hd, dag_followAt_of_notMem (hdags ▸ hd), hnone]
    exact .none

/-- Whatever the root is, the hooks in a dag that is reached from another name the driver of one and the same task. -/
theorem hooked_driver (hwalk : w.walkable = .ok (index, start)) (hexit : s.exitTemplate ≠ "") {d : Nat}
    (hreach : w.Reaches d) (ht : w.templates[d]? = some t) (hdag : t.isDag) (hne : t.name ≠ w.entrypoint) :
    ∃ p v task, w.Reaches p ∧ w.templates[p]? = some v ∧ task ∈ v.tasks ∧ task.template = t.name ∧
      ∀ root, ∃ t', (w.augment s .driver root).workflow.templates[d]? = some t' ∧
        List.Forall₂ (Task.Hooked s.exitTemplate
          ("\x7b\x7btasks." ++ task.name ++ ".outputs.parameters.execution-id\x7d\x7d")) t.tasks t'.tasks := by
  obtain ⟨hI, -, u, hu, hname⟩ := walkable_ok hwalk
  have hstart : d ≠ start := mt (hI.name_eq_entrypoint_iff hu hname ht).mpr hne
  have hid : ∀ root, ∃ plan call v, (w.augment s .driver root).workflow = w.follow s plan ∧
      w.preorder.find? (·.task.template = t.name) = some call ∧ w.Reaches call.caller ∧
      w.templates[call.caller]? = some v ∧ call.task ∈ v.tasks ∧ call.task.template = t.name ∧
      plan.idAt? d = some ("\x7b\x7btasks." ++ call.task.name ++ ".outputs.parameters.execution-id\x7d\x7d") := by
    intro root
    obtain ⟨plan, hplan, heq⟩ := augment_of_walkable hwalk s .driver root
    obtain ⟨hgrown, hcovers⟩ := planFrom_grown hI _ hplan
    have hd : d ∈ plan.dags := (hgrown.mem_dags_iff hcovers ht).mpr ⟨hdag, (hI.reaches_iff hu hname).mp hreach⟩
    obtain ⟨call, v, hcall⟩ := idAt?_driver hI hu hname hplan ht hd hstart
    exact ⟨plan, call, v, by rw [heq], hcall⟩
  -- The first call that leads to the dag is the same for every root, so any root will do to find it.
  obtain ⟨-, call, v, -, hfind, hcaller, hv, htask, htemplate, -⟩ := hid ""
  refine ⟨call.caller, v, call.task, hcaller, hv, htask, htemplate, fun root => ?_⟩
  obtain ⟨plan, call', -, hafter, hfind', -, -, -, -, hd⟩ := hid root
  rw [hfind] at hfind'
  cases hfind'
  exact ⟨followAt s plan d t, by rw [hafter, getElem?_follow, ht]; rfl, hooked_followAt hexit hd⟩

/-! ## The identifier of the root -/

/-- Two augmentations with drivers as the source of identifiers, but with different roots, fail with one error or touch as
much. Without an exit template they make the same of the workflow. With one the results differ in the hooks of the tasks of
the entrypoint, which name the one root and the other. The tasks of any other dag that is reached name the driver of a task
that invokes the dag, and whatever the root is, it is the same task. -/
theorem augment_roots (w : Workflow) (s : AugmentSettings) (root root' : String) :
    (∃ e, (w.augment s .driver root).result = .error e ∧ (w.augment s .driver root').result = .error e) ∨
    ∃ r, (w.augment s .driver root).result = .ok r ∧ (w.augment s .driver root').result = .ok r ∧
      (s.exitTemplate = "" → (w.augment s .driver root).workflow = (w.augment s .driver root').workflow) ∧
      (s.exitTemplate ≠ "" →
        (w.augment s .driver root).workflow.AgreesBut s.exitTemplate root root' (w.augment s .driver root').workflow ∧
        ∀ d t, w.Reaches d → w.templates[d]? = some t → t.isDag → t.name ≠ w.entrypoint →
          ∃ p v task, w.Reaches p ∧ w.templates[p]? = some v ∧ task ∈ v.tasks ∧ task.template = t.name ∧
            ∀ any, ∃ t', (w.augment s .driver any).workflow.templates[d]? = some t' ∧
              List.Forall₂ (Task.Hooked s.exitTemplate
                ("\x7b\x7btasks." ++ task.name ++ ".outputs.parameters.execution-id\x7d\x7d")) t.tasks t'.tasks) := by
  rcases w.augment_both s s .driver .driver root root' with ⟨e, heq, heq'⟩ |
    ⟨index, start, plan, plan', hwalk, hplan, hplan', ⟨hcontainers, hdags⟩, heq, heq'⟩
  · left
    rw [heq, heq']
    exact ⟨e, rfl, rfl⟩
  · right
    obtain ⟨hI, -, u, hu, hname⟩ := walkable_ok hwalk
    refine ⟨w.planReport s plan, by rw [heq], by rw [heq', planReport_congr w s hcontainers hdags], ?_, ?_⟩
    · intro hexit
      rw [heq, heq']
      exact follow_congr_of_exit_eq hexit hcontainers
    · intro hexit
      refine ⟨?_, fun d t hreach ht hdag hne => hooked_driver hwalk hexit hreach ht hdag hne⟩
      rw [heq, heq']
      refine ⟨rfl, rfl, forall₂_follow fun p t ht => ?_⟩
      rw [name_followAt]
      split
      · next hentry =>
        have hp : p = start := (hI.name_eq_entrypoint_iff hu hname ht).mp hentry
        subst hp
        rw [hu] at ht
        cases ht
        exact agreesBut_followAt_start hI hexit hu hname hplan hplan'
      · next hentry =>
        have hp : p ≠ start := mt (hI.name_eq_entrypoint_iff hu hname ht).mpr hentry
        exact followAt_driver_congr hI hu hname hplan hplan' hp t

end Workflow

end WorkflowAugment

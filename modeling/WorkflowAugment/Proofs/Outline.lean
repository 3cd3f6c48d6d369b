import WorkflowAugment.Proofs.Renumbering

/-!
# What a walk looks at

Of a workflow a walk looks at the names of the templates, at whether they have containers, and at the names of the tasks with
what they invoke: the outline. Workflows with one outline are checked alike (`walkable_outline`) and planned alike
(`planFrom_outline`), if identifiers are made of no more than that. Identifiers in turn never decide where a plan goes
(`route_planFrom`), and neither do the settings: two augmentations of one workflow come to the same places (`augment_both`).
-/

namespace WorkflowAugment

/-- A task with its name and what it invokes. -/
def Task.outline (t : Task) : Task := .invoking t.name t.template

/-- A template with its name, the outlines of its tasks, and a container if it has one. -/
def Template.outline (t : Template) : Template :=
  ⟨t.name, t.container.map fun _ => .ofImage "", [], t.dag.map fun d => .ofTasks (d.tasks.map Task.outline), .empty⟩

/-- A workflow with the outlines of its templates, at the same positions. -/
def Workflow.outline (w : Workflow) : Workflow := .ofTemplates w.entrypoint (w.templates.map Template.outline)

/-- Identifiers are made of that of the enclosing invocation and of the name of the task and what it invokes. -/
def IdSource.ByName (ids : IdSource) : Prop :=
  ∀ (parent : String) (t u : Task), t.name = u.name → t.template = u.template → ids parent t = ids parent u

/-- The sources at hand make identifiers of no more than that. -/
theorem IdSource.byName : ByName driver ∧ ByName path ∧ ByName template := by
  refine ⟨?_, ?_, ?_⟩ <;> intro parent t u hname htemplate
  · rw [driver, driver, hname]
  · rw [path, path, hname]
  · rw [template, template, htemplate]

/-- Whether an augmentation goes through, and with which error it fails otherwise. -/
def Augmentation.verdict (a : Augmentation) : Except AugmentError Unit := a.result.map fun _ => ()

namespace Template

variable (t : Template)

@[simp] theorem name_outline : t.outline.name = t.name := rfl

@[simp] theorem isSome_container_outline : t.outline.container.isSome = t.container.isSome := by
  simp [outline]

@[simp] theorem isDag_outline : t.outline.isDag = t.isDag := by
  simp [outline, isDag]

/-- The tasks of an outline are the outlines of the tasks. -/
@[simp] theorem tasks_outline : t.outline.tasks = t.tasks.map Task.outline := by
  unfold outline tasks
  cases t.dag <;> rfl

end Template

/-- Settings with one exit template attach the same hooks. -/
theorem AugmentSettings.augmentTask_congr {s s' : AugmentSettings} (hexit : s.exitTemplate = s'.exitTemplate) :
    s.augmentTask = s'.augmentTask := by
  funext id task
  rw [augmentTask, augmentTask, hexit]

namespace Workflow

variable {w : Workflow} {index : Index} {s s' : AugmentSettings} {ids ids' : IdSource}

/-- At each position an outline has the outline of the template there. -/
theorem getElem?_outline (w : Workflow) (p : Nat) : w.outline.templates[p]? = w.templates[p]?.map Template.outline :=
  List.getElem?_map

/-! ## The check -/

/-- A workflow and its outline have one index. -/
theorem index_outline (w : Workflow) : w.outline.index = w.index := by
  have hfrom : ∀ (ts : List Template) (n : Nat) (met : List (String × Nat)),
      indexFrom n met (ts.map Template.outline) = indexFrom n met ts := by
    intro ts
    induction ts with
    | nil => intro n met; rfl
    | cons t ts ih =>
      intro n met
      rw [List.map_cons, indexFrom, indexFrom, Template.name_outline, ih]
  exact hfrom w.templates 0 []

/-- A workflow and its outline have as many dags. -/
theorem depthBudget_outline (w : Workflow) : w.outline.depthBudget = w.depthBudget := by
  have hdag : Template.isDag ∘ Template.outline = Template.isDag := funext Template.isDag_outline
  rw [depthBudget, depthBudget, dagCount, dagCount, outline, ofTemplates, List.countP_map, hdag]

/-- A task and its outline resolve alike. -/
theorem resolve_comp_outline (index : Index) : index.resolve ∘ Task.outline = index.resolve := rfl

/-- A search finds the same in a workflow and in its outline. -/
theorem checkDag_outline (w : Workflow) (index : Index) (budget : Nat) :
    ∀ (pos : Nat) (m : Marks), w.outline.checkDag index budget pos m = w.checkDag index budget pos m := by
  induction budget with
  | zero => intro pos m; rfl
  | succ budget ih =>
    intro pos m
    rw [checkDag, checkDag, getElem?_outline]
    cases w.templates[pos]? with
    | none => rfl
    | some t =>
      cases hdag : t.dag with
      | none => simp [Template.outline, hdag]
      | some dag =>
        simp only [Template.outline, hdag, Option.map_some, Dag.ofTasks, List.mapM_map, resolve_comp_outline, ih]

/-- A workflow can be walked exactly if its outline can, and otherwise is refused for the same reason. -/
theorem walkable_outline (w : Workflow) : w.outline.walkable = w.walkable := by
  have hentry : w.outline.entrypoint = w.entrypoint := rfl
  simp only [walkable, index_outline, checkDag_outline, depthBudget_outline, hentry]

/-- An augmentation goes through exactly if the workflow can be walked, and otherwise fails with the reason for that. -/
theorem verdict_augment (w : Workflow) (s : AugmentSettings) (ids : IdSource) (root : String) :
    (w.augment s ids root).verdict = w.walkable.map fun _ => () := by
  rcases w.augment_cases s ids root with ⟨e, hwalk, heq⟩ | ⟨index, start, plan, hwalk, -, heq⟩
  · rw [heq, hwalk]
    rfl
  · rw [heq, hwalk]
    rfl

/-! ## The plan -/

/-- A plan meets a container in an outline where it does in the template. -/
theorem meetContainer_outline (plan : Plan) (pos : Nat) (t : Template) :
    plan.meetContainer pos t.outline = plan.meetContainer pos t := by
  simp [Plan.meetContainer]

/-- A plan is made alike for a workflow and for its outline, and whatever the settings are, if identifiers do not depend on
anything that the outline leaves out. -/
theorem planFrom_outline (hids : ids.ByName) (w : Workflow) (index : Index) (s s' : AugmentSettings) (budget : Nat) :
    ∀ (pos : Nat) (id : String) (plan : Plan),
      w.outline.planFrom index s ids budget pos id plan = w.planFrom index s' ids budget pos id plan := by
  have hid : ∀ (id : String) (task : Task),
      ids id (s.augmentTask id task.outline) = ids id (s'.augmentTask id task) := by
    intro id task
    apply hids <;> simp [Task.outline, Task.invoking]
  induction budget with
  | zero => intro pos id plan; rfl
  | succ budget ih =>
    intro pos id plan
    have hchild : (fun task => (index.resolve task).map (·, ids id (s.augmentTask id task))) ∘ Task.outline =
        fun task => (index.resolve task).map (·, ids id (s'.augmentTask id task)) := by
      funext task
      simp only [Function.comp_apply, hid]
      rfl
    rw [planFrom, planFrom, getElem?_outline]
    cases w.templates[pos]? with
    | none => rfl
    | some t =>
      simp only [Option.map_some, Template.isDag_outline, Template.tasks_outline, meetContainer_outline, List.mapM_map,
        hchild, ih]

/-- Settings with one exit template are planned for alike, whatever the identifiers are made of. -/
theorem planFrom_congr (hexit : s.exitTemplate = s'.exitTemplate) (w : Workflow) (index : Index) (ids : IdSource)
    (budget : Nat) : ∀ (pos : Nat) (id : String) (plan : Plan),
      w.planFrom index s ids budget pos id plan = w.planFrom index s' ids budget pos id plan := by
  have htask := AugmentSettings.augmentTask_congr hexit
  induction budget with
  | zero => intro pos id plan; rfl
  | succ budget ih =>
    intro pos id plan
    simp only [planFrom, htask, ih]

/-- A plan touches as much of a workflow as of its outline. -/
theorem planReport_outline (w : Workflow) (s : AugmentSettings) (plan : Plan) :
    w.outline.planReport s plan = w.planReport s plan := by
  have hhooks : w.outline.stepHooks s = w.stepHooks s := by
    funext step
    cases step with
    | container pos => rfl
    | again pos => rfl
    | dag pos id =>
      rw [stepHooks, stepHooks, getElem?_outline]
      cases w.templates[pos]? <;> simp
  rw [planReport, planReport, hhooks]

end Workflow

/-! ## The route -/

/-- The step without the identifier. -/
def Step.unnamed : Step → Step
  | .dag pos _ => .dag pos ""
  | step => step

namespace Plan

/-- Where a plan goes: its steps without the identifiers. -/
def route (plan : Plan) : Plan := plan.map Step.unnamed

/-- The route of a plan that goes on goes on. -/
@[simp] theorem route_append (plan more : Plan) : (plan ++ more).route = plan.route ++ more.route :=
  List.map_append

/-- The route of a plan meets its containers. -/
@[simp] theorem containers_route (plan : Plan) : plan.route.containers = plan.containers := by
  have hstep : Step.container? ∘ Step.unnamed = Step.container? := by
    funext step
    cases step <;> rfl
  rw [route, containers, containers, List.filterMap_map, hstep]

/-- The route of a plan meets its dags. -/
@[simp] theorem dags_route (plan : Plan) : plan.route.dags = plan.dags := by
  have hstep : Step.dag? ∘ Step.unnamed = Step.dag? := by
    funext step
    cases step <;> rfl
  rw [route, dags, dags, List.filterMap_map, hstep]

/-- A plan and its route meet the same container. -/
theorem route_meetContainer (plan : Plan) (pos : Nat) (t : Template) :
    (plan.meetContainer pos t).route = plan.route.meetContainer pos t := by
  unfold meetContainer
  rw [containers_route]
  split
  · exact route_append plan _
  · rfl

end Plan

namespace Workflow

variable {index : Index} {s s' : AugmentSettings} {ids ids' : IdSource}

/-- Where a plan goes is where it goes without any identifiers and with no settings. -/
theorem route_planFrom (w : Workflow) (index : Index) (s : AugmentSettings) (ids : IdSource) (budget : Nat) :
    ∀ (pos : Nat) (id : String) (plan : Plan),
      (w.planFrom index s ids budget pos id plan).map Plan.route =
        w.planFrom index default (fun _ _ => "") budget pos "" plan.route := by
  induction budget with
  | zero => intro pos id plan; rfl
  | succ budget ih =>
    intro pos id plan
    rw [planFrom, planFrom, Plan.dags_route]
    cases w.templates[pos]? with
    | none => rfl
    | some t =>
      by_cases hdag : t.isDag
      · by_cases hpos : pos ∈ plan.dags
        · simp only [hdag, hpos, not_true, if_true, if_false, Except.map, Plan.route_append, Plan.route_meetContainer]
          rfl
        · simp only [hdag, hpos, not_true, if_false]
          -- The identifiers are noted beside what the tasks invoke, so they are left out there before the children are followed.
          have hchildren : t.tasks.mapM (fun task => (index.resolve task).map (·, "")) =
              (t.tasks.mapM fun task => (index.resolve task).map (·, ids id (s.augmentTask id task))).map
                (List.map fun child => (child.1, "")) := by
            rw [Chain.map_mapM]
            congr 1
            funext task
            cases index.resolve task <;> rfl
          rw [hchildren]
          cases t.tasks.mapM fun task => (index.resolve task).map (·, ids id (s.augmentTask id task)) with
          | error h => rfl
          | ok children =>
            have hentered : Plan.route (plan.meetContainer pos t ++ [.dag pos id]) =
                plan.route.meetContainer pos t ++ [.dag pos ""] := by
              rw [Plan.route_append, Plan.route_meetContainer]
              rfl
            rw [← hentered]
            refine Chain.map_foldlM Plan.route (fun child : Nat × String => (child.1, "")) ?_ children _
            intro plan child
            exact ih child.1 child.2 plan
      · simp only [hdag, ← Plan.route_meetContainer]
        rfl

/-- Plans from one start enter the same dags and augment the same containers in the same order, whatever the settings, the
source of identifiers and the identifier of the start are. -/
theorem planFrom_route {w : Workflow} {budget pos : Nat} {id id' : String} {plan plan' : Plan}
    (h : w.planFrom index s ids budget pos id [] = .ok plan) (h' : w.planFrom index s' ids' budget pos id' [] = .ok plan') :
    plan.containers = plan'.containers ∧ plan.dags = plan'.dags := by
  have hroute : Except.ok (ε := Halt) plan.route = .ok plan'.route := by
    have hmap := route_planFrom w index s ids budget pos id []
    rw [← route_planFrom w index s' ids' budget pos id' [], h, h'] at hmap
    exact hmap
  rw [← Plan.containers_route plan, ← Plan.dags_route plan, Except.ok.inj hroute, Plan.containers_route, Plan.dags_route]
  exact ⟨rfl, rfl⟩

/-! ## Two augmentations -/

/-- What two plans leave is related template by template if it is so at each position. -/
theorem forall₂_follow {R : Template → Template → Prop} {w : Workflow} {plan plan' : Plan}
    (h : ∀ p t, w.templates[p]? = some t → R (followAt s plan p t) (followAt s' plan' p t)) :
    List.Forall₂ R (w.follow s plan).templates (w.follow s' plan').templates := by
  rw [List.forall₂_iff_get]
  refine ⟨by simp [follow], fun p hp hp' => ?_⟩
  simp only [follow, List.get_eq_getElem, List.getElem_mapIdx]
  exact h p _ (List.getElem?_eq_getElem _)

/-- Two augmentations of one workflow fail with one error and leave the workflow as it is, or carry out plans that augment
the same containers and enter the same dags. -/
theorem augment_both (w : Workflow) (s s' : AugmentSettings) (ids ids' : IdSource) (root root' : String) :
    (∃ e, w.augment s ids root = ⟨w, .error e, augmentSpan root w.entrypoint, []⟩ ∧
      w.augment s' ids' root' = ⟨w, .error e, augmentSpan root' w.entrypoint, []⟩) ∨
    ∃ index start plan plan', w.walkable = .ok (index, start) ∧
      w.planFrom index s ids w.depthBudget start root [] = .ok plan ∧
      w.planFrom index s' ids' w.depthBudget start root' [] = .ok plan' ∧
      (plan.containers = plan'.containers ∧ plan.dags = plan'.dags) ∧
      w.augment s ids root = ⟨w.follow s plan, .ok (w.planReport s plan), augmentSpan root w.entrypoint,
        plan.flatMap (w.stepEvents s) ++ [.finished (w.planReport s plan)]⟩ ∧
      w.augment s' ids' root' = ⟨w.follow s' plan', .ok (w.planReport s' plan'), augmentSpan root' w.entrypoint,
        plan'.flatMap (w.stepEvents s') ++ [.finished (w.planReport s' plan')]⟩ := by
  rcases w.augment_cases s ids root with ⟨e, hwalk, heq⟩ | ⟨index, start, plan, hwalk, hplan, heq⟩
  · exact Or.inl ⟨e, heq, augment_of_error hwalk s' ids' root'⟩
  · obtain ⟨plan', hplan', heq'⟩ := augment_of_walkable hwalk s' ids' root'
    exact Or.inr ⟨index, start, plan, plan', hwalk, hplan, hplan', planFrom_route hplan hplan', heq, heq'⟩

end Workflow

end WorkflowAugment

import Mathlib.Algebra.GroupWithZero.Nat
import WorkflowAugment.Augment.Walk
import WorkflowAugment.Proofs.Chain
import WorkflowAugment.Proofs.Index

/-!
# The plan of a walk

A walk changes the workflow that it walks over, but where it goes does not depend on what it has changed. `planFrom` finds
the same way over the workflow as it was and writes it down, step by step, and `follow` makes the changes that the steps ask
for, each at its place. `visit_ofPlan` says that a walk leaves exactly that, so what holds of an augmentation is read off
its plan.
-/

namespace WorkflowAugment

/-- A step of a plan, about the template at a position. -/
inductive Step where
  /-- The container is augmented. -/
  | container (pos : Nat)
  /-- The dag is entered, as the invocation of the identifier. -/
  | dag (pos : Nat) (id : String)
  /-- The dag is met again and left as it is. -/
  | again (pos : Nat)
deriving DecidableEq

namespace Step

/-- The position that the step is about. -/
def pos : Step → Nat
  | .container pos | .dag pos _ | .again pos => pos

/-- The position whose container the step augments. -/
def container? : Step → Option Nat
  | .container pos => some pos
  | _ => none

/-- The position whose dag the step enters. -/
def dag? : Step → Option Nat
  | .dag pos _ => some pos
  | _ => none

/-- The identifier that the dag at a position is entered with. -/
def idAt? (pos : Nat) : Step → Option String
  | .dag p id => if p = pos then some id else none
  | _ => none

end Step

/-- The steps of a walk, in the order in which it takes them. -/
abbrev Plan : Type := List Step

namespace Plan

/-- The positions whose containers are augmented. -/
def containers (plan : Plan) : List Nat := plan.filterMap Step.container?

/-- The positions whose dags are entered. -/
def dags (plan : Plan) : List Nat := plan.filterMap Step.dag?

/-- The identifier that the dag at a position is first entered with. -/
def idAt? (plan : Plan) (pos : Nat) : Option String := plan.findSome? (Step.idAt? pos)

/-- The identifier of the dag at a position, empty if the plan does not enter it. -/
def idAt (plan : Plan) (pos : Nat) : String := (plan.idAt? pos).getD ""

/-- The plan once the template `t` has been met at a position: its container is augmented if it has not been. -/
def meetContainer (plan : Plan) (pos : Nat) (t : Template) : Plan :=
  if t.container.isSome ∧ pos ∉ plan.containers then plan ++ [.container pos] else plan

end Plan

/-- The template with hooks on all tasks of its dag, as the invocation `id`. -/
def AugmentSettings.augmentDag (s : AugmentSettings) (id : String) (t : Template) : Template :=
  { t with dag := t.dag.map fun d => { d with tasks := d.tasks.map (s.augmentTask id) } }

namespace Workflow

/-- The plan after a visit to a position as part of the invocation `id`, `plan` being what was noted before. -/
def planFrom (w : Workflow) (index : Index) (s : AugmentSettings) (ids : IdSource) :
    Nat → Nat → String → Plan → Except Halt Plan
  | 0, _, _, _ => .error .exhausted
  | budget + 1, pos, id, plan =>
    match w.templates[pos]? with
    | none => .ok plan
    | some t =>
      if ¬t.isDag then .ok (plan.meetContainer pos t)
      else if pos ∈ plan.dags then .ok (plan.meetContainer pos t ++ [.again pos])
      else do
        let children ← t.tasks.mapM fun task => (index.resolve task).map (·, ids id (s.augmentTask id task))
        children.foldlM (fun plan child => w.planFrom index s ids budget child.1 child.2 plan)
          (plan.meetContainer pos t ++ [.dag pos id])

/-- The template at a position once a plan is carried out. -/
def followAt (s : AugmentSettings) (plan : Plan) (pos : Nat) (t : Template) : Template :=
  let t := if pos ∈ plan.containers then s.augmentTemplate t else t
  (plan.idAt? pos).elim t fun id => s.augmentDag id t

/-- The workflow once a plan is carried out. -/
def follow (w : Workflow) (s : AugmentSettings) (plan : Plan) : Workflow :=
  { w with templates := w.templates.mapIdx (followAt s plan) }

/-- What becomes known of a step. -/
def stepEvents (w : Workflow) (s : AugmentSettings) : Step → List Event
  | .container pos => w.templates[pos]?.elim [] s.templateEvents
  | .dag pos id => w.templates[pos]?.elim [] fun t =>
    .dagEntered t.name id t.tasks.length :: t.tasks.flatMap (s.taskEvents id)
  | .again pos => w.templates[pos]?.elim [] fun t => [.dagMetAgain t.name]

/-- The hooks that a step attaches. -/
def stepHooks (w : Workflow) (s : AugmentSettings) : Step → Nat
  | .dag pos _ => if s.attaches then w.templates[pos]?.elim 0 (·.tasks.length) else 0
  | _ => 0

/-- What a plan touches. -/
def planReport (w : Workflow) (s : AugmentSettings) (plan : Plan) : Report :=
  ⟨plan.containers.length, plan.dags.length, (plan.map (w.stepHooks s)).sum⟩

end Workflow

/-- The walk that has carried out a plan. -/
def Walk.ofPlan (w : Workflow) (s : AugmentSettings) (plan : Plan) : Walk :=
  ⟨w.follow s plan, plan.containers, plan.dags, w.planReport s plan, plan.flatMap (w.stepEvents s)⟩

/-! ## Plans that grow -/

namespace Plan

@[simp] theorem containers_nil : containers [] = [] := rfl

@[simp] theorem dags_nil : dags [] = [] := rfl

/-- The containers of two plans are met one after the other. -/
@[simp] theorem containers_append (plan more : Plan) : (plan ++ more).containers = plan.containers ++ more.containers :=
  List.filterMap_append

/-- The dags of two plans are met one after the other. -/
@[simp] theorem dags_append (plan more : Plan) : (plan ++ more).dags = plan.dags ++ more.dags :=
  List.filterMap_append

/-- The id at a position is the first that a plan has given to it. -/
@[simp] theorem idAt?_append (plan more : Plan) (pos : Nat) :
    (plan ++ more).idAt? pos = (plan.idAt? pos).or (more.idAt? pos) :=
  List.findSome?_append

@[simp] theorem containers_container (pos : Nat) : containers [.container pos] = [pos] := rfl

@[simp] theorem containers_dag (pos : Nat) (id : String) : containers [.dag pos id] = [] := rfl

@[simp] theorem containers_again (pos : Nat) : containers [.again pos] = [] := rfl

@[simp] theorem dags_container (pos : Nat) : dags [.container pos] = [] := rfl

@[simp] theorem dags_dag (pos : Nat) (id : String) : dags [.dag pos id] = [pos] := rfl

@[simp] theorem dags_again (pos : Nat) : dags [.again pos] = [] := rfl

@[simp] theorem idAt?_container (pos p : Nat) : idAt? [.container pos] p = none := rfl

/-- To enter a dag gives its position an id, and no other. -/
@[simp] theorem idAt?_dag (pos : Nat) (id : String) (p : Nat) :
    idAt? [.dag pos id] p = if pos = p then some id else none := by
  by_cases h : pos = p <;> simp [idAt?, Step.idAt?, h]

@[simp] theorem idAt?_again (pos p : Nat) : idAt? [.again pos] p = none := rfl

/-- If a position has an id, that is the id at it. -/
theorem idAt_of_idAt? {plan : Plan} {pos : Nat} {id : String} (h : plan.idAt? pos = some id) : plan.idAt pos = id := by
  rw [idAt, h]
  rfl

/-- A dag has an identifier exactly if it is entered. -/
theorem idAt?_eq_none_iff {plan : Plan} {pos : Nat} : plan.idAt? pos = none ↔ pos ∉ plan.dags := by
  unfold idAt? dags
  rw [List.findSome?_eq_none_iff, List.mem_filterMap]
  constructor
  · rintro h ⟨step, hstep, hpos⟩
    have := h step hstep
    cases step <;> simp_all [Step.idAt?, Step.dag?]
  · intro h step hstep
    cases step with
    | dag p id =>
      have hne : p ≠ pos := fun heq => h ⟨.dag p id, hstep, congrArg some heq⟩
      simp [Step.idAt?, hne]
    | container p => rfl
    | again p => rfl

/-- To meet a container enters no dag. -/
@[simp] theorem dags_meetContainer (plan : Plan) (pos : Nat) (t : Template) :
    (plan.meetContainer pos t).dags = plan.dags := by
  unfold meetContainer
  split <;> simp

/-- To meet a container gives no id. -/
@[simp] theorem idAt?_meetContainer (plan : Plan) (pos : Nat) (t : Template) (p : Nat) :
    (plan.meetContainer pos t).idAt? p = plan.idAt? p := by
  unfold meetContainer
  split <;> simp

/-- A dag that is new gets the identifier that it is entered with. -/
theorem idAt?_enter {plan : Plan} {pos : Nat} (t : Template) (id : String) (h : pos ∉ plan.dags) :
    idAt? (plan.meetContainer pos t ++ [.dag pos id]) pos = some id := by
  rw [idAt?_append, idAt?_meetContainer, idAt?_eq_none_iff.mpr h]
  simp

end Plan

/-! ## The template at a position -/

namespace Workflow

variable {w : Workflow} {s : AugmentSettings} {plan : Plan} {pos p : Nat} {t : Template} {id : String}

/-- Carrying out a plan changes each template by itself. -/
theorem getElem?_follow (w : Workflow) (s : AugmentSettings) (plan : Plan) (pos : Nat) :
    (w.follow s plan).templates[pos]? = (w.templates[pos]?).map (followAt s plan pos) := by
  simp [follow, List.getElem?_mapIdx]

/-- A template keeps its name, whatever the plan. -/
@[simp] theorem name_followAt : (followAt s plan pos t).name = t.name := by
  unfold followAt
  split <;> cases plan.idAt? pos <;> simp [AugmentSettings.augmentDag]

/-- A template keeps its other members, whatever the plan. -/
@[simp] theorem extra_followAt : (followAt s plan pos t).extra = t.extra := by
  unfold followAt
  split <;> cases plan.idAt? pos <;> simp [AugmentSettings.augmentDag]

/-- A template has a container behind a plan if it had one before. -/
@[simp] theorem isSome_container_followAt : (followAt s plan pos t).container.isSome = t.container.isSome := by
  unfold followAt
  split <;> cases plan.idAt? pos <;> simp [AugmentSettings.augmentDag]

/-- The names of templates stay as they are. -/
theorem names_follow (w : Workflow) (s : AugmentSettings) (plan : Plan) : (w.follow s plan).names = w.names := by
  apply List.ext_getElem?
  intro p
  rw [names, names, List.getElem?_map, List.getElem?_map, getElem?_follow]
  cases w.templates[p]? <;> simp

/-- What becomes of a container that the plan augments, of its volumes too, does not depend on the dag. -/
theorem container_followAt_of_mem (h : pos ∈ plan.containers) :
    (followAt s plan pos t).container = (s.augmentTemplate t).container ∧
      (followAt s plan pos t).volumes = (s.augmentTemplate t).volumes := by
  unfold followAt
  rw [if_pos h]
  cases plan.idAt? pos <;> exact ⟨rfl, rfl⟩

/-- A container that the plan does not augment stays as it is, and so do the volumes. -/
theorem container_followAt_of_notMem (h : pos ∉ plan.containers) :
    (followAt s plan pos t).container = t.container ∧ (followAt s plan pos t).volumes = t.volumes := by
  unfold followAt
  rw [if_neg h]
  cases plan.idAt? pos <;> exact ⟨rfl, rfl⟩

/-- The dag that a plan enters has hooks on all tasks, as the invocation that it is entered as. -/
theorem dag_followAt_of_idAt? (h : plan.idAt? pos = some id) :
    (followAt s plan pos t).dag = t.dag.map fun d => { d with tasks := d.tasks.map (s.augmentTask id) } := by
  unfold followAt
  rw [h]
  split <;> simp [AugmentSettings.augmentDag]

/-- A plan that does not enter a dag leaves it as it is. -/
theorem dag_followAt_of_notMem (h : pos ∉ plan.dags) : (followAt s plan pos t).dag = t.dag := by
  rw [← Plan.idAt?_eq_none_iff] at h
  unfold followAt
  split <;> simp [h]

/-- A plan that does nothing at a position leaves the template there as it is. -/
theorem followAt_of_notMem (hc : pos ∉ plan.containers) (hd : pos ∉ plan.dags) : followAt s plan pos t = t := by
  rw [← Plan.idAt?_eq_none_iff] at hd
  simp [followAt, hc, hd]

/-- Whether a template has a dag is not changed by a plan. -/
theorem isDag_followAt : (followAt s plan pos t).isDag = t.isDag := by
  unfold followAt Template.isDag
  split <;> cases plan.idAt? pos <;> simp [AugmentSettings.augmentDag]

/-- Two plans that do the same at a position make the same of the template there. -/
theorem followAt_congr {plan' : Plan} (hc : pos ∈ plan'.containers ↔ pos ∈ plan.containers)
    (hid : plan'.idAt? pos = plan.idAt? pos) : followAt s plan' pos t = followAt s plan pos t := by
  simp only [followAt, hc, hid]

/-- Augmenting a container that has not been augmented is one step more of the plan. -/
theorem followAt_container (h : pos ∉ plan.containers) :
    followAt s (plan ++ [.container pos]) pos t = s.augmentTemplate (followAt s plan pos t) := by
  cases hid : plan.idAt? pos with
  | none => simp [followAt, h, hid]
  | some id => simp [followAt, h, hid, AugmentSettings.augmentDag, AugmentSettings.augmentTemplate_withDag]

/-- Entering a dag that has not been entered is one step more of the plan. -/
theorem followAt_dag (h : pos ∉ plan.dags) :
    followAt s (plan ++ [.dag pos id]) pos t = s.augmentDag id (followAt s plan pos t) := by
  rw [← Plan.idAt?_eq_none_iff] at h
  simp [followAt, h]

/-- A step more makes no difference at any position but its own. -/
theorem followAt_append_of_ne {step : Step} (h : p ≠ step.pos) :
    followAt s (plan ++ [step]) p t = followAt s plan p t := by
  apply followAt_congr
  · cases step <;> simp_all [Step.pos]
  · cases step <;> simp_all [Step.pos, eq_comm]

/-- Carrying out a step more changes the template at its position. -/
theorem follow_append (step : Step) (ht : w.templates[step.pos]? = some t) :
    w.follow s (plan ++ [step]) =
      (w.follow s plan).setTemplate step.pos (followAt s (plan ++ [step]) step.pos t) := by
  obtain ⟨hlen, hget⟩ := List.getElem?_eq_some_iff.mp ht
  unfold follow setTemplate
  congr 1
  apply List.ext_getElem?
  intro p
  rw [List.getElem?_mapIdx, List.getElem?_set]
  by_cases hp : step.pos = p
  · subst hp
    simp [hlen, hget]
  · rw [if_neg hp, List.getElem?_mapIdx]
    apply congrArg (fun f => Option.map f w.templates[p]?)
    funext u
    exact followAt_append_of_ne fun h => hp h.symm

/-! ## One visit of a plan -/

/-- A visit that goes through finds no template, one without a dag, a dag that has been entered, or a new dag, and then goes
through everything that the tasks of it invoke. -/
theorem planFrom_eq_ok {index : Index} {ids : IdSource} {budget : Nat} {plan' : Plan}
    (h : w.planFrom index s ids (budget + 1) pos id plan = .ok plan') :
    (w.templates[pos]? = none ∧ plan' = plan) ∨
      ∃ t, w.templates[pos]? = some t ∧
        ((¬t.isDag ∧ plan' = plan.meetContainer pos t) ∨
          (t.isDag ∧ pos ∈ plan.dags ∧ plan' = plan.meetContainer pos t ++ [.again pos]) ∨
          (t.isDag ∧ pos ∉ plan.dags ∧ ∃ children,
            t.tasks.mapM (fun task => (index.resolve task).map (·, ids id (s.augmentTask id task))) = .ok children ∧
            children.foldlM (fun plan child => w.planFrom index s ids budget child.1 child.2 plan)
              (plan.meetContainer pos t ++ [.dag pos id]) = .ok plan')) := by
  rw [planFrom] at h
  cases ht : w.templates[pos]? with
  | none =>
    simp only [ht] at h
    cases h
    exact Or.inl ⟨rfl, rfl⟩
  | some t =>
    simp only [ht] at h
    refine Or.inr ⟨t, rfl, ?_⟩
    split at h
    · rename_i hdag
      cases h
      exact Or.inl ⟨hdag, rfl⟩
    · rename_i hdag
      rw [not_not] at hdag
      split at h
      · rename_i hpos
        cases h
        exact Or.inr (Or.inl ⟨hdag, hpos, rfl⟩)
      · rename_i hpos
        obtain ⟨children, hres, h⟩ := Chain.bind_eq_ok_iff.mp h
        exact Or.inr (Or.inr ⟨hdag, hpos, children, hres, h⟩)

end Workflow

end WorkflowAugment

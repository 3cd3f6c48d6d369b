import Mathlib.Algebra.BigOperators.Group.Multiset.Basic
import WorkflowAugment.Proofs.Hooks
import WorkflowAugment.Proofs.Roots

/-!
# What a trace says

The records of an augmentation come from five places that take turns while the workflow is walked. Sorted by their messages
they agree with what the augmentation leaves and with its report (`augment_trace`): each message belongs to one kind of step
of the plan (`said_stepEvents_of_template` and those behind it), so its records are counted by the steps. How often the walk
comes back to a dag is a count of edges: each visit to a dag comes from a task of a dag that was entered, but for the first
(`planFrom_met`).
-/

namespace WorkflowAugment

/-- The records with a message among those of events, in order. -/
def said (message : String) (events : List Event) : List Record :=
  (events.map Event.record).filter (·.message = message)

/-- The value of a field of the record. -/
def Record.value? (r : Record) (name : String) : Option FieldValue := r.fields.lookup name

/-- What is said in two stretches is said one after the other. -/
theorem said_append (message : String) (events more : List Event) :
    said message (events ++ more) = said message events ++ said message more := by
  simp [said]

/-- What is said in another order is the same in another order. -/
theorem said_perm {events more : List Event} (h : events.Perm more) (message : String) :
    (said message events).Perm (said message more) :=
  (h.map Event.record).filter _

/-- What is said of several things is said of each in turn. -/
theorem said_flatMap {α : Type} (message : String) (f : α → List Event) (xs : List α) :
    said message (xs.flatMap f) = xs.flatMap fun x => said message (f x) := by
  simp [said, List.map_flatMap, List.filter_flatMap]

/-! ## Which events say what -/

/-- The messages about templates with a container. -/
def templateMessages : List String :=
  ["no container, ca bundle skipped", "ca bundle configured", "identity env added", "metadata env source added"]

/-- The messages about tasks. -/
def taskMessages : List String := ["exit hook replaced", "exit hook attached"]

namespace AugmentSettings

variable {s : AugmentSettings} {m : String}

/-- What is said of a template is said in the messages about templates. -/
theorem said_templateEvents_of_notMem (h : m ∉ templateMessages) (t : Template) :
    said m (s.templateEvents t) = [] := by
  simp only [templateMessages, List.mem_cons, List.not_mem_nil, or_false, not_or] at h
  unfold templateEvents CaBundle.events Template.identityEvents Template.metadataEvents
  split <;> cases t.container <;> simp [said, Event.record, Ne.symm h.1, Ne.symm h.2.1, Ne.symm h.2.2.1, Ne.symm h.2.2.2]

/-- What is said of a task is said in the messages about tasks. -/
theorem said_taskEvents_of_notMem (h : m ∉ taskMessages) (id : String) (t : Task) :
    said m (s.taskEvents id t) = [] := by
  simp only [taskMessages, List.mem_cons, List.not_mem_nil, or_false, not_or] at h
  unfold taskEvents Task.exitHookEvents
  split <;> cases t.hooks.exit? <;> simp [said, Event.record, Ne.symm h.1, Ne.symm h.2]

/-- What is said of a template with a container: that the container gets everything, the bundle only if there is one. -/
theorem length_said_templateEvents {t : Template} (h : t.container.isSome) :
    (said "identity env added" (s.templateEvents t)).length = 1 ∧
    (said "metadata env source added" (s.templateEvents t)).length = 1 ∧
    (said "ca bundle configured" (s.templateEvents t)).length = (if s.bundle.secretName ≠ "" then 1 else 0) ∧
    (said "no container, ca bundle skipped" (s.templateEvents t)).length = 0 := by
  obtain ⟨c, hc⟩ := Option.isSome_iff_exists.mp h
  unfold templateEvents CaBundle.events Template.identityEvents Template.metadataEvents CaBundle.isConfigured
  by_cases hsecret : s.bundle.secretName = "" <;> simp [said, Event.record, hc, hsecret]

/-- What is said of a hook that a task had. -/
theorem said_replaced_taskEvents (id : String) (t : Task) :
    said "exit hook replaced" (s.taskEvents id t) =
      if s.exitTemplate = "" then [] else t.hooks.exit?.elim [] fun h => [(Event.hookReplaced t.name h.template).record] := by
  unfold taskEvents Task.exitHookEvents
  split
  · rfl
  · cases t.hooks.exit? <;> simp [said, Event.record]

/-- Each hook that a task gets is spoken of. -/
theorem length_said_attached_taskEvents (id : String) (t : Task) :
    (said "exit hook attached" (s.taskEvents id t)).length = if s.attaches then 1 else 0 := by
  unfold taskEvents Task.exitHookEvents attaches
  by_cases hexit : s.exitTemplate = ""
  · simp [hexit, said]
  · cases t.hooks.exit? <;> simp [hexit, said, Event.record]

end AugmentSettings

/-! ## The events of a plan, sorted -/

namespace Step

/-- The position and the identifier of the dag that the step enters. -/
def entry? : Step → Option (Nat × String)
  | .dag pos id => some (pos, id)
  | _ => none

/-- The position of the dag that the step meets again. -/
def again? : Step → Option Nat
  | .again pos => some pos
  | _ => none

end Step

namespace Plan

/-- The positions whose dags are entered, with the identifiers that they are entered with. -/
def entries (plan : Plan) : List (Nat × String) := plan.filterMap Step.entry?

/-- The positions whose dags are met again, as often as they are. -/
def agains (plan : Plan) : List Nat := plan.filterMap Step.again?

/-- The entries of two plans come one after the other. -/
@[simp] theorem entries_append (plan more : Plan) : (plan ++ more).entries = plan.entries ++ more.entries :=
  List.filterMap_append

@[simp] theorem agains_nil : agains [] = [] := rfl

/-- The repeated meetings of two plans come one after the other. -/
@[simp] theorem agains_append (plan more : Plan) : (plan ++ more).agains = plan.agains ++ more.agains :=
  List.filterMap_append

@[simp] theorem entries_container (pos : Nat) : entries [.container pos] = [] := rfl

@[simp] theorem entries_dag (pos : Nat) (id : String) : entries [.dag pos id] = [(pos, id)] := rfl

@[simp] theorem entries_again (pos : Nat) : entries [.again pos] = [] := rfl

@[simp] theorem agains_container (pos : Nat) : agains [.container pos] = [] := rfl

@[simp] theorem agains_dag (pos : Nat) (id : String) : agains [.dag pos id] = [] := rfl

@[simp] theorem agains_again (pos : Nat) : agains [.again pos] = [pos] := rfl

/-- The dags of a plan are those that it enters. -/
theorem dags_eq_map_entries (plan : Plan) : plan.dags = plan.entries.map (·.1) := by
  rw [dags, entries, List.map_filterMap]
  congr 1
  funext step
  cases step <;> rfl

/-- A dag has the identifier that it is entered with. -/
theorem mem_entries_of_idAt? {plan : Plan} {pos : Nat} {id : String} (h : plan.idAt? pos = some id) :
    (pos, id) ∈ plan.entries := by
  obtain ⟨step, hstep, hid⟩ := List.exists_of_findSome?_eq_some h
  rw [entries, List.mem_filterMap]
  refine ⟨step, hstep, ?_⟩
  cases step with
  | dag p i =>
    rw [Step.idAt?, Option.ite_none_right_eq_some] at hid
    obtain ⟨rfl, hi⟩ := hid
    rw [Step.entry?, Option.some.inj hi]
  | container p => cases hid
  | again p => cases hid

end Plan

namespace Workflow

variable {w : Workflow} {s : AugmentSettings} {plan : Plan} {m : String}

/-- The tasks of the dag at a position. -/
def tasksAt (w : Workflow) (p : Nat) : List Task := w.templates[p]?.elim [] Template.tasks

/-- The events of the containers that a plan augments. -/
def containerEvents (w : Workflow) (s : AugmentSettings) (plan : Plan) : List Event :=
  plan.containers.flatMap fun p => w.templates[p]?.elim [] s.templateEvents

/-- The events of the dags that a plan enters, without those of their tasks. -/
def entryEvents (w : Workflow) (plan : Plan) : List Event :=
  plan.entries.flatMap fun entry => w.templates[entry.1]?.elim [] fun t => [.dagEntered t.name entry.2 t.tasks.length]

/-- The events of the tasks that a plan comes to. -/
def hookEvents (w : Workflow) (s : AugmentSettings) (plan : Plan) : List Event :=
  plan.entries.flatMap fun entry => (w.tasksAt entry.1).flatMap (s.taskEvents entry.2)

/-- The events of the dags that a plan meets again. -/
def againEvents (w : Workflow) (plan : Plan) : List Event :=
  plan.agains.flatMap fun p => w.templates[p]?.elim [] fun t => [.dagMetAgain t.name]

/-- The events of a plan are those of its containers, dags, tasks and dags met again. -/
theorem perm_events (w : Workflow) (s : AugmentSettings) (plan : Plan) :
    (plan.flatMap (w.stepEvents s)).Perm
      (w.containerEvents s plan ++ w.entryEvents plan ++ w.hookEvents s plan ++ w.againEvents plan) := by
  rw [List.perm_iff_count]
  intro e
  induction plan using List.reverseRecOn with
  | nil => rfl
  | append_singleton plan step ih =>
    unfold containerEvents entryEvents hookEvents againEvents at ih ⊢
    simp only [List.count_append] at ih ⊢
    rw [List.flatMap_append, List.count_append, ih]
    cases step with
    | container p =>
      simp [stepEvents]
      omega
    | dag p id =>
      simp [stepEvents, tasksAt]
      cases w.templates[p]? <;> simp [List.count_cons]
      omega
    | again p =>
      simp [stepEvents]
      omega

/-- Containers are spoken of in the messages about templates only. -/
theorem said_containerEvents_of_notMem (h : m ∉ templateMessages) : said m (w.containerEvents s plan) = [] := by
  rw [containerEvents, said_flatMap, List.flatMap_eq_nil_iff]
  intro p _
  cases w.templates[p]? with
  | none => rfl
  | some t => exact AugmentSettings.said_templateEvents_of_notMem h t

/-- Tasks are spoken of in the messages about tasks only. -/
theorem said_hookEvents_of_notMem (h : m ∉ taskMessages) : said m (w.hookEvents s plan) = [] := by
  simp only [hookEvents, said_flatMap, List.flatMap_eq_nil_iff]
  intro entry _ t _
  exact AugmentSettings.said_taskEvents_of_notMem h entry.2 t

/-- To enter a dag says that a dag is walked, and nothing else. -/
theorem said_entryEvents_of_ne (h : "walking dag" ≠ m) : said m (w.entryEvents plan) = [] := by
  rw [entryEvents, said_flatMap, List.flatMap_eq_nil_iff]
  intro entry _
  cases w.templates[entry.1]? <;> simp [said, Event.record, h]

/-- To meet a dag again says that it has been walked, and nothing else. -/
theorem said_againEvents_of_ne (h : "dag template already walked" ≠ m) : said m (w.againEvents plan) = [] := by
  rw [againEvents, said_flatMap, List.flatMap_eq_nil_iff]
  intro p _
  cases w.templates[p]? <;> simp [said, Event.record, h]

/-- In the messages about templates a plan speaks of its containers. -/
theorem said_plan_of_template (h : m ∈ templateMessages) :
    (said m (plan.flatMap (w.stepEvents s))).Perm (said m (w.containerEvents s plan)) := by
  have hother : m ∉ taskMessages ∧ "walking dag" ≠ m ∧ "dag template already walked" ≠ m := by
    revert m
    decide
  simpa [said_append, said_hookEvents_of_notMem hother.1, said_entryEvents_of_ne hother.2.1,
    said_againEvents_of_ne hother.2.2] using said_perm (w.perm_events s plan) m

/-- In the messages about tasks a plan speaks of the tasks that it comes to. -/
theorem said_plan_of_task (h : m ∈ taskMessages) :
    (said m (plan.flatMap (w.stepEvents s))).Perm (said m (w.hookEvents s plan)) := by
  have hother : m ∉ templateMessages ∧ "walking dag" ≠ m ∧ "dag template already walked" ≠ m := by
    revert m
    decide
  simpa [said_append, said_containerEvents_of_notMem hother.1, said_entryEvents_of_ne hother.2.1,
    said_againEvents_of_ne hother.2.2] using said_perm (w.perm_events s plan) m

/-- All that is said of dags that are walked comes of entering them. -/
theorem said_plan_entered :
    (said "walking dag" (plan.flatMap (w.stepEvents s))).Perm (said "walking dag" (w.entryEvents plan)) := by
  simpa (disch := decide) [said_append, said_containerEvents_of_notMem, said_hookEvents_of_notMem,
    said_againEvents_of_ne] using said_perm (w.perm_events s plan) "walking dag"

/-- All that is said of dags already walked comes of meeting them again. -/
theorem said_plan_again :
    (said "dag template already walked" (plan.flatMap (w.stepEvents s))).Perm
      (said "dag template already walked" (w.againEvents plan)) := by
  simpa (disch := decide) [said_append, said_containerEvents_of_notMem, said_hookEvents_of_notMem,
    said_entryEvents_of_ne] using said_perm (w.perm_events s plan) "dag template already walked"

/-- No step says that the augmentation is done. -/
theorem said_plan_finished : said "workflow augmented" (plan.flatMap (w.stepEvents s)) = [] := by
  simpa (disch := decide) [said_append, said_containerEvents_of_notMem, said_hookEvents_of_notMem,
    said_entryEvents_of_ne, said_againEvents_of_ne] using said_perm (w.perm_events s plan) "workflow augmented"

/-! ## How much each part says -/

/-- Lists of one length make up a list that is so many times as long. -/
theorem length_flatMap_of_length_eq {α β : Type} {f : α → List β} {n : Nat} {xs : List α}
    (h : ∀ x ∈ xs, (f x).length = n) : (xs.flatMap f).length = xs.length * n := by
  rw [List.length_flatMap, List.map_congr_left h, List.map_const', List.sum_replicate_nat]

/-- Lists that are put together have the elements of all of them. -/
theorem coe_flatMap {α β : Type} (f : α → List β) (xs : List α) :
    (xs.flatMap f : Multiset β) = (xs.map fun x => (f x : Multiset β)).sum := by
  induction xs with
  | nil => rfl
  | cons x xs ih => rw [List.flatMap_cons, ← Multiset.coe_add, ih, List.map_cons, List.sum_cons]

/-- If all containers say as much in a message, a plan says that much for each of its containers. -/
theorem length_said_containerEvents {n : Nat}
    (hcontainers : ∀ p ∈ plan.containers, ∃ t, w.templates[p]? = some t ∧ t.container.isSome)
    (hlength : ∀ t : Template, t.container.isSome → (said m (s.templateEvents t)).length = n) :
    (said m (w.containerEvents s plan)).length = plan.containers.length * n := by
  rw [containerEvents, said_flatMap]
  refine length_flatMap_of_length_eq fun p hp => ?_
  obtain ⟨t, ht, hc⟩ := hcontainers p hp
  rw [ht]
  exact hlength t hc

/-- A plan says of each dag once that it is walked. -/
theorem length_said_entryEvents (hdags : ∀ p ∈ plan.dags, ∃ t, w.templates[p]? = some t) :
    (said "walking dag" (w.entryEvents plan)).length = plan.dags.length := by
  rw [entryEvents, said_flatMap, Plan.dags_eq_map_entries, List.length_map, ← Nat.mul_one plan.entries.length]
  refine length_flatMap_of_length_eq fun entry hentry => ?_
  obtain ⟨t, ht⟩ := hdags entry.1 (Plan.dags_eq_map_entries plan ▸ List.mem_map_of_mem hentry)
  rw [ht]
  rfl

/-- A plan says of each dag that is met again that it has been walked. -/
theorem length_said_againEvents (hagains : ∀ p ∈ plan.agains, ∃ t, w.templates[p]? = some t) :
    (said "dag template already walked" (w.againEvents plan)).length = plan.agains.length := by
  rw [againEvents, said_flatMap, ← Nat.mul_one plan.agains.length]
  refine length_flatMap_of_length_eq fun p hp => ?_
  obtain ⟨t, ht⟩ := hagains p hp
  rw [ht]
  rfl

/-- A plan speaks of every hook that its report counts. -/
theorem length_said_hookEvents (w : Workflow) (s : AugmentSettings) (plan : Plan) :
    (said "exit hook attached" (w.hookEvents s plan)).length = (w.planReport s plan).hooks := by
  have htasks : ∀ entry ∈ plan.entries,
      ((w.tasksAt entry.1).flatMap fun t => said "exit hook attached" (s.taskEvents entry.2 t)).length =
        if s.exitTemplate ≠ "" then w.taskCount entry.1 else 0 := by
    intro entry _
    rw [length_flatMap_of_length_eq fun t _ => AugmentSettings.length_said_attached_taskEvents entry.2 t]
    unfold AugmentSettings.attaches taskCount tasksAt
    by_cases hexit : s.exitTemplate = ""
    · simp [hexit]
    · cases w.templates[entry.1]? <;> simp [hexit]
  simp only [hookEvents, said_flatMap]
  rw [List.length_flatMap, List.map_congr_left htasks, planReport, sum_stepHooks, Plan.dags_eq_map_entries, List.map_map]
  by_cases hexit : s.exitTemplate = "" <;> simp [hexit, Function.comp_def]

/-- What is said in place of the hooks that the tasks of the dag at a position had. -/
def replacements (w : Workflow) (p : Nat) : List Record :=
  (w.tasksAt p).flatMap fun t => t.hooks.exit?.elim [] fun h => [(Event.hookReplaced t.name h.template).record]

/-- With an exit template, a plan speaks of every hook that a task of its dags had. -/
theorem said_replaced_hookEvents (w : Workflow) (s : AugmentSettings) (plan : Plan) :
    said "exit hook replaced" (w.hookEvents s plan) =
      if s.exitTemplate = "" then [] else plan.dags.flatMap w.replacements := by
  simp only [hookEvents, said_flatMap, AugmentSettings.said_replaced_taskEvents]
  split
  · simp
  · rw [Plan.dags_eq_map_entries, List.flatMap_map]
    rfl

/-- A plan that enters no dag twice says of each under which identifier it is walked. -/
theorem filter_said_entryEvents {index : Index} {d : Nat} {t : Template} {id : String} (hI : w.IndexedBy index)
    (honce : plan.dags.Nodup) (ht : w.templates[d]? = some t) (hid : plan.idAt? d = some id) :
    (said "walking dag" (w.entryEvents plan)).filter (·.value? "template" = some (.display t.name)) =
      [(Event.dagEntered t.name id t.tasks.length).record] := by
  obtain ⟨before, after, hsplit⟩ := List.append_of_mem (Plan.mem_entries_of_idAt? hid)
  have hothers : ∀ entry ∈ before ++ after, entry.1 ≠ d := by
    rw [Plan.dags_eq_map_entries, hsplit, List.map_append, List.map_cons] at honce
    have hnot := (List.nodup_middle.mp honce).notMem
    rw [← List.map_append] at hnot
    exact fun entry hentry heq => hnot (List.mem_map.mpr ⟨entry, hentry, heq⟩)
  have hnone : ∀ entries : List (Nat × String), (∀ entry ∈ entries, entry.1 ≠ d) →
      (entries.flatMap fun entry => (said "walking dag" (w.templates[entry.1]?.elim [] fun u =>
        [.dagEntered u.name entry.2 u.tasks.length])).filter (·.value? "template" = some (.display t.name))) = [] := by
    intro entries hne
    rw [List.flatMap_eq_nil_iff]
    intro entry hentry
    cases hu : w.templates[entry.1]? with
    | none => rfl
    | some u =>
      have hname : u.name ≠ t.name := fun heq => hne entry hentry (hI.eq_of_name hu ht heq)
      simp [said, Event.record, Record.value?, hname]
  rw [entryEvents, said_flatMap, List.filter_flatMap, hsplit, List.flatMap_append, List.flatMap_cons,
    hnone before fun entry h => hothers entry (List.mem_append_left _ h),
    hnone after fun entry h => hothers entry (List.mem_append_right _ h), ht]
  simp [said, Event.record, Record.value?]

/-! ## How often a dag is met -/

/-- How many tasks of the dag at a position invoke a dag. -/
def dagCalls (w : Workflow) (p : Nat) : Nat := (w.tasksAt p).countP fun t => (w.dagNamed? t.template).isSome

/-- 1 if there is a dag at the position, and otherwise 0. -/
def dagAt (w : Workflow) (p : Nat) : Nat := w.templates[p]?.elim 0 fun t => if t.isDag then 1 else 0

/-- Between two plans dags are entered and met again as often as tasks of the dags that are entered invoke one, and `n`
times more. -/
def Met (w : Workflow) (n : Nat) (plan plan' : Plan) : Prop :=
  plan'.dags.length + plan'.agains.length + (plan.dags.map w.dagCalls).sum =
    plan.dags.length + plan.agains.length + (plan'.dags.map w.dagCalls).sum + n

theorem Met.refl (w : Workflow) (plan : Plan) : w.Met 0 plan plan := rfl

/-- Meetings of two stretches add up. -/
theorem Met.trans {n n' : Nat} {plan' plan'' : Plan} (h : w.Met n plan plan') (h' : w.Met n' plan' plan'') :
    w.Met (n + n') plan plan'' := by
  unfold Met at h h' ⊢
  omega

/-- To meet a container is to meet no dag again. -/
theorem agains_meetContainer (plan : Plan) (p : Nat) (t : Template) : (plan.meetContainer p t).agains = plan.agains := by
  unfold Plan.meetContainer
  split <;> simp

/-- There is a dag where a name leads exactly if there is a dag of the name. -/
theorem IndexedBy.dagAt_eq {index : Index} (hI : w.IndexedBy index) {name : String} {p : Nat}
    (h : index.lookup name = some p) : w.dagAt p = if (w.dagNamed? name).isSome then 1 else 0 := by
  obtain ⟨t, ht, -⟩ := (hI name p).mp h
  by_cases hdag : t.isDag
  · rw [(hI.dagNamed?_of_lookup h).mpr ⟨rfl, t, ht, hdag⟩]
    simp [dagAt, ht, hdag]
  · have hnone : w.dagNamed? name = none := by
      rw [Option.eq_none_iff_forall_ne_some]
      intro d hd
      obtain ⟨rfl, u, hu, hudag⟩ := (hI.dagNamed?_of_lookup h).mp hd
      rw [ht] at hu
      cases hu
      exact hdag hudag
    simp [dagAt, ht, hdag, hnone]

/-- What the tasks of a dag lead to are as many dags as the tasks invoke. -/
theorem sum_dagAt_children {index : Index} {ids : IdSource} {id : String} (hI : w.IndexedBy index) {ts : List Task} :
    ∀ {children : List (Nat × String)},
      ts.mapM (fun t => (index.resolve t).map (·, ids id (s.augmentTask id t))) = .ok children →
      (children.map fun child => w.dagAt child.1).sum = ts.countP fun t => (w.dagNamed? t.template).isSome := by
  induction ts with
  | nil =>
    intro children h
    cases h
    rfl
  | cons t ts ih =>
    intro children h
    rw [List.mapM_cons] at h
    obtain ⟨child, hchild, h⟩ := Chain.bind_eq_ok_iff.mp h
    obtain ⟨rest, hrest, h⟩ := Chain.bind_eq_ok_iff.mp h
    cases h
    obtain ⟨p, hp, rfl⟩ := Chain.map_eq_ok_iff.mp hchild
    have hlookup := Index.resolve_eq_ok_iff.mp hp
    have hone := hI.dagAt_eq hlookup
    rw [List.map_cons, List.sum_cons, ih hrest, List.countP_cons, hone, Nat.add_comm]

/-- If each visit meets a dag as often as there is one, visits one after another do so as well. -/
theorem foldlM_met {f : Plan → Nat × String → Except Halt Plan} (children : List (Nat × String))
    (hvisit : ∀ child ∈ children, ∀ plan plan', f plan child = .ok plan' → w.Met (w.dagAt child.1) plan plan') :
    ∀ {plan plan' : Plan}, children.foldlM f plan = .ok plan' →
      w.Met (children.map fun child => w.dagAt child.1).sum plan plan' := by
  induction children with
  | nil =>
    intro plan plan' h
    cases h
    exact .refl w plan
  | cons child children ih =>
    intro plan plan' h
    rw [List.foldlM_cons] at h
    obtain ⟨mid, hchild, hrest⟩ := Chain.bind_eq_ok_iff.mp h
    have hfirst := hvisit child List.mem_cons_self plan mid hchild
    exact hfirst.trans (ih (fun c hc => hvisit c (List.mem_cons_of_mem child hc)) hrest)

/-- A visit meets a dag if there is one at its position, and besides as often as the tasks of the dags that are entered on
the way invoke one. -/
theorem planFrom_met {index : Index} {ids : IdSource} (hI : w.IndexedBy index) (budget : Nat) :
    ∀ {pos : Nat} {id : String} {plan plan' : Plan}, w.planFrom index s ids budget pos id plan = .ok plan' →
      w.Met (w.dagAt pos) plan plan' := by
  induction budget with
  | zero => intro pos id plan plan' h; cases h
  | succ budget ih =>
    intro pos id plan plan' h
    rcases planFrom_eq_ok h with ⟨hnone, rfl⟩ | ⟨t, ht, hcases⟩
    · have hzero : w.dagAt pos = 0 := by rw [dagAt, hnone]; rfl
      rw [hzero]
      exact .refl w _
    have hmeet : w.Met 0 plan (plan.meetContainer pos t) := by
      unfold Met
      rw [Plan.dags_meetContainer, agains_meetContainer]
      rfl
    rcases hcases with ⟨hdag, rfl⟩ | ⟨hdag, hpos, rfl⟩ | ⟨hdag, hpos, children, hres, hfold⟩
    · have hzero : w.dagAt pos = 0 := by simp [dagAt, ht, hdag]
      rw [hzero]
      exact hmeet
    · have hone : w.dagAt pos = 1 := by simp [dagAt, ht, hdag]
      have hagain : w.Met 1 (plan.meetContainer pos t) (plan.meetContainer pos t ++ [.again pos]) := by
        simp [Met]
        omega
      rw [hone]
      exact hmeet.trans hagain
    · have hone : w.dagAt pos = 1 := by simp [dagAt, ht, hdag]
      have hchildren := foldlM_met children (fun child _ plan plan' hc => ih hc) hfold
      have hcalls : w.dagCalls pos = t.tasks.countP fun t => (w.dagNamed? t.template).isSome := by
        simp [dagCalls, tasksAt, ht]
      rw [sum_dagAt_children hI hres, ← hcalls] at hchildren
      rw [hone]
      -- Entering the dag meets it once, and brings in the calls that the visits to its children make up for.
      unfold Met at hchildren ⊢
      simp only [Plan.dags_append, Plan.dags_meetContainer, Plan.dags_dag, Plan.agains_append, agains_meetContainer,
        Plan.agains_dag, List.length_append, List.map_append, List.sum_append, List.map_cons, List.map_nil,
        List.sum_cons, List.sum_nil, List.length_cons, List.length_nil] at hchildren
      omega

/-! ## The trace of an augmentation -/

/-- What the events of an augmentation say that goes through: of every dag that is reached, that it is walked, once and as
the invocation that the hooks of its tasks name; of every hook that is attached and of every one that is replaced; of every
container that is augmented; of every task, besides the entrypoint, that leads to a dag again; and at last that it is done. -/
structure Traced (w : Workflow) (s : AugmentSettings) (dags : Finset Nat) (r : Report) (after : Workflow)
    (events : List Event) : Prop where
  walked : ∀ d ∈ dags, ∀ t, w.templates[d]? = some t → ∃ id,
    (said "walking dag" events).filter (·.value? "template" = some (.display t.name)) =
      [⟨.trace, "pipec_augment::walker", "walking dag",
        [("template", .display t.name), ("dag_id", .text id), ("tasks", .count t.tasks.length)]⟩] ∧
    (s.exitTemplate ≠ "" → ∃ t', after.templates[d]? = some t' ∧
      List.Forall₂ (Task.Hooked s.exitTemplate id) t.tasks t'.tasks)
  entered : (said "walking dag" events).length = dags.card ∧ r.dags = dags.card
  attached : (said "exit hook attached" events).length = r.hooks
  replaced : (said "exit hook replaced" events : Multiset Record) =
    if s.exitTemplate = "" then 0 else ∑ d ∈ dags, (w.replacements d : Multiset Record)
  identity : (said "identity env added" events).length = r.containers
  metadata : (said "metadata env source added" events).length = r.containers
  bundle : (said "ca bundle configured" events).length = if s.bundle.secretName ≠ "" then r.containers else 0
  skipped : said "no container, ca bundle skipped" events = []
  again : (said "dag template already walked" events).length + r.dags =
    ∑ d ∈ dags, w.dagCalls d + if (w.dagNamed? w.entrypoint).isSome then 1 else 0
  finished : ∃ before, events = before ++ [.finished r] ∧ said "workflow augmented" before = []

/-- What a plan from the beginning says, once it is carried out. -/
theorem traced_plan {index : Index} {ids : IdSource} {budget start : Nat} {root : String} {u : Template}
    (hI : w.IndexedBy index) (hu : w.templates[start]? = some u) (hname : u.name = w.entrypoint)
    (hplan : w.planFrom index s ids budget start root [] = .ok plan) :
    w.Traced s plan.dags.toFinset (w.planReport s plan) (w.follow s plan)
      (plan.flatMap (w.stepEvents s) ++ [.finished (w.planReport s plan)]) := by
  obtain ⟨hgrown, -⟩ := planFrom_grown hI _ hplan
  have honce : plan.Once := planFrom_once _ hplan Plan.once_nil
  have hstep : ∀ step ∈ plan, ∃ t, w.templates[step.pos]? = some t ∧ step.suits t := by
    intro step hmem
    obtain hnil | ⟨t, ht, hsuits, -⟩ := hgrown.reached step hmem
    · cases hnil
    · exact ⟨t, ht, hsuits⟩
  have hcontainers : ∀ p ∈ plan.containers, ∃ t, w.templates[p]? = some t ∧ t.container.isSome :=
    fun p hp => hstep _ (Plan.mem_containers_iff.mp hp)
  have hdags : ∀ p ∈ plan.dags, ∃ t, w.templates[p]? = some t := fun p hp =>
    (hgrown.exists_dag hp).imp fun _ h => h.1
  have hagains : ∀ p ∈ plan.agains, ∃ t, w.templates[p]? = some t := by
    intro p hp
    obtain ⟨step, hmem, hpos⟩ := List.mem_filterMap.mp hp
    obtain ⟨t, ht, -⟩ := hstep step hmem
    cases step with
    | again q =>
      cases hpos
      exact ⟨t, ht⟩
    | container q => cases hpos
    | dag q id => cases hpos
  have hcard : plan.dags.toFinset.card = plan.dags.length := List.toFinset_card_of_nodup honce.dags
  -- Only the last event says that the augmentation is done.
  have hlast : ∀ m, "workflow augmented" ≠ m →
      said m (plan.flatMap (w.stepEvents s) ++ [.finished (w.planReport s plan)]) =
        said m (plan.flatMap (w.stepEvents s)) := by
    intro m hm
    rw [said_append]
    simp [said, Event.record, hm]
  have hcontainer : ∀ (m : String) (n : Nat), m ∈ templateMessages →
      (∀ t : Template, t.container.isSome → (said m (s.templateEvents t)).length = n) →
      (said m (plan.flatMap (w.stepEvents s))).length = (w.planReport s plan).containers * n := by
    intro m n hm hlength
    rw [(said_plan_of_template hm).length_eq]
    exact length_said_containerEvents hcontainers hlength
  constructor
  case walked =>
    intro d hd t ht
    rw [List.mem_toFinset] at hd
    cases hid : plan.idAt? d with
    | none => exact absurd hd (Plan.idAt?_eq_none_iff.mp hid)
    | some id =>
      refine ⟨id, ?_, fun hexit => ⟨_, by rw [getElem?_follow, ht]; rfl, hooked_followAt hexit hid⟩⟩
      rw [hlast _ (by decide), ← List.perm_singleton]
      refine (said_plan_entered.filter _).trans ?_
      rw [filter_said_entryEvents hI honce.dags ht hid]
      rfl
  case entered =>
    rw [hlast _ (by decide), said_plan_entered.length_eq, length_said_entryEvents hdags]
    exact ⟨hcard.symm, hcard.symm⟩
  case attached =>
    rw [hlast _ (by decide), (said_plan_of_task (by decide)).length_eq, length_said_hookEvents]
  case replaced =>
    rw [hlast _ (by decide), Multiset.coe_eq_coe.mpr (said_plan_of_task (by decide)), said_replaced_hookEvents]
    split
    · rfl
    · rw [List.sum_toFinset _ honce.dags, coe_flatMap]
  case identity =>
    have hone := hcontainer "identity env added" 1 (by decide) fun t h => (AugmentSettings.length_said_templateEvents h).1
    rw [hlast _ (by decide), hone, mul_one]
  case metadata =>
    have hone := hcontainer "metadata env source added" 1 (by decide) fun t h =>
      (AugmentSettings.length_said_templateEvents h).2.1
    rw [hlast _ (by decide), hone, mul_one]
  case bundle =>
    have hone := hcontainer "ca bundle configured" _ (by decide) fun t h =>
      (AugmentSettings.length_said_templateEvents h).2.2.1
    rw [hlast _ (by decide), hone]
    split <;> simp
  case skipped =>
    have hnone := hcontainer "no container, ca bundle skipped" 0 (by decide) fun t h =>
      (AugmentSettings.length_said_templateEvents h).2.2.2
    rw [hlast _ (by decide), ← List.length_eq_zero_iff, hnone, mul_zero]
  case again =>
    have hmet := planFrom_met hI budget hplan
    have hstart := hI.dagAt_eq ((hI w.entrypoint start).mpr ⟨u, hu, hname⟩)
    rw [hlast _ (by decide), said_plan_again.length_eq, length_said_againEvents hagains,
      List.sum_toFinset w.dagCalls honce.dags, ← hstart]
    simp only [Met, Plan.dags_nil, Plan.agains_nil, List.map_nil, List.sum_nil, List.length_nil] at hmet
    simp only [planReport]
    omega
  case finished => exact ⟨_, rfl, said_plan_finished⟩

/-- The trace agrees with what is left and with the report. An augmentation is one span; if it fails it says nothing, and if it
goes through its records are, message by message, those of `Traced`: the dags are the ones that are reached. -/
theorem augment_trace (w : Workflow) (s : AugmentSettings) (ids : IdSource) (root : String) :
    (w.augment s ids root).span = ⟨.debug, "pipec_augment::walker", "augment",
      [("root_dag_id", .text root), ("entrypoint", .display w.entrypoint)]⟩ ∧
    match (w.augment s ids root).result with
    | .error _ => (w.augment s ids root).events = []
    | .ok r => ∃ dags : Finset Nat, (∀ d, d ∈ dags ↔ w.Reaches d ∧ ∃ t, w.templates[d]? = some t ∧ t.isDag) ∧
      w.Traced s dags r (w.augment s ids root).workflow (w.augment s ids root).events := by
  rcases w.augment_cases s ids root with ⟨e, -, heq⟩ | ⟨index, start, plan, hwalk, hplan, heq⟩
  · rw [heq]
    exact ⟨rfl, rfl⟩
  · obtain ⟨hI, -, u, hu, hname⟩ := walkable_ok hwalk
    obtain ⟨hgrown, hcovers⟩ := planFrom_grown hI _ hplan
    rw [heq]
    refine ⟨rfl, plan.dags.toFinset, fun d => ?_, traced_plan hI hu hname hplan⟩
    rw [List.mem_toFinset, hI.reaches_iff hu hname]
    constructor
    · intro hd
      obtain ⟨t, ht, hdag, hreach⟩ := hgrown.exists_dag hd
      exact ⟨hreach, t, ht, hdag⟩
    · rintro ⟨hreach, t, ht, hdag⟩
      exact (hgrown.mem_dags_iff hcovers ht).mpr ⟨hdag, hreach⟩

/-- In the example a task of the entrypoint leads to a dag again that has been walked behind an earlier one. -/
example : (sharing.augment ⟨.disabled, ⟨"", ""⟩, some "notify"⟩ .path "root").events.map (·.record.message) =
    ["walking dag", "exit hook attached", "exit hook attached", "exit hook attached", "walking dag", "exit hook attached",
      "walking dag", "exit hook attached", "identity env added", "metadata env source added",
      "dag template already walked", "workflow augmented"] := by
  rfl

end Workflow

end WorkflowAugment

import WorkflowAugment.Proofs.Coverage
import WorkflowAugment.Proofs.Search
import WorkflowAugment.Proofs.Walk

/-!
# Which workflows are augmented

An augmentation goes through on exactly the workflows that are well formed, and its error says what is wrong with any other
(`augment_verdict`). What fails is left as it was: all that can go wrong is found before the walk begins, and the walk,
though it resolves every task once more, finds nothing else (`augment_atomic`).
-/

namespace WorkflowAugment

namespace Workflow

variable {w : Workflow} {index : Index} {s : AugmentSettings} {ids : IdSource} {start p : Nat} {u : Template}

/-- If the names differ, what is reached is what is reached from the one template of the entrypoint. -/
theorem IndexedBy.reaches_iff (hI : w.IndexedBy index) (hu : w.templates[start]? = some u) (hname : u.name = w.entrypoint) :
    w.Reaches p ↔ Relation.ReflTransGen w.Invokes start p := by
  constructor
  · rintro ⟨start', t, ht, ht', hreach⟩
    have hsame : start = start' := hI.eq_of_name hu ht (hname.trans ht'.symm)
    exact hsame ▸ hreach
  · intro hreach
    exact ⟨start, u, hu, hname, hreach⟩

/-- Nothing is wrong behind a finished position. -/
theorem Fault.not_finished {e : AugmentError} (h : w.Fault [] p e) : ¬w.Finished p := by
  intro hfin
  cases h with
  | dangling hpq ht htask hname => exact hname (hfin.resolves _ _ hpq ht _ htask)
  | cycle hpq ht hdag hq =>
    rcases hq with hq | hq
    · cases hq
    · exact hfin.acyclic _ hpq hq

/-- The start is finished exactly if nothing is wrong with what is reached. -/
theorem IndexedBy.finished_iff (hI : w.IndexedBy index) (hu : w.templates[start]? = some u)
    (hname : u.name = w.entrypoint) :
    w.Finished start ↔
      (∀ p t, w.Reaches p → w.templates[p]? = some t → ∀ task ∈ t.tasks, task.template ∈ w.names) ∧
        ∀ p, w.Reaches p → ¬Relation.TransGen w.Invokes p p := by
  simp only [hI.reaches_iff hu hname]
  exact ⟨fun h => ⟨h.resolves, h.acyclic⟩, fun h => ⟨h.1, h.2⟩⟩

/-- What is wrong behind the start is wrong with a task or a dag that is reached. -/
theorem IndexedBy.reached_of_fault (hI : w.IndexedBy index) (hu : w.templates[start]? = some u)
    (hname : u.name = w.entrypoint) {e : AugmentError} (h : w.Fault [] start e) :
    (∃ p t task, w.Reaches p ∧ w.templates[p]? = some t ∧ task ∈ t.tasks ∧ task.template ∉ w.names ∧
      e = .unknownTemplate (.task task.name) task.template) ∨
    ∃ p t, w.Reaches p ∧ w.templates[p]? = some t ∧ t.isDag ∧ Relation.TransGen w.Invokes p p ∧
      e = .dagCycle t.name := by
  cases h with
  | dangling hreach ht htask hname' =>
    exact Or.inl ⟨_, _, _, (hI.reaches_iff hu hname).mpr hreach, ht, htask, hname', rfl⟩
  | cycle hreach ht hdag hq =>
    rcases hq with hq | hq
    · cases hq
    · exact Or.inr ⟨_, _, (hI.reaches_iff hu hname).mpr hreach, ht, hdag, hq, rfl⟩

/-! ## Before the walk -/

/-- What can become of the check before the walk: a name that is repeated, an entrypoint that is not there, a search that
finds the start finished, or one that finds what is wrong behind it. -/
theorem walkable_cases (w : Workflow) :
    (∃ before t, w.RepeatsFirst before t ∧ w.walkable = .error (.manifest (.duplicateTemplate t.name))) ∨
      (w.names.Nodup ∧ w.entrypoint ∉ w.names ∧ w.walkable = .error (.unknownTemplate .entrypoint w.entrypoint)) ∨
      ∃ index start u, w.names.Nodup ∧ w.IndexedBy index ∧ w.templates[start]? = some u ∧ u.name = w.entrypoint ∧
        ((w.walkable = .ok (index, start) ∧ w.Finished start) ∨ ∃ e, w.walkable = .error e ∧ w.Fault [] start e) := by
  rcases w.index_cases with ⟨hnd, index, hindex, hI⟩ | ⟨before, t, hrep, herr⟩
  · right
    cases hlookup : index.lookup w.entrypoint with
    | none =>
      left
      refine ⟨hnd, hI.lookup_eq_none_iff.mp hlookup, ?_⟩
      simp [walkable, hindex, hlookup, Except.mapError, bind, Except.bind]
    | some start =>
      right
      obtain ⟨u, hu, hname⟩ := (hI _ start).mp hlookup
      refine ⟨index, start, u, hnd, hI, hu, hname, ?_⟩
      cases hcheck : w.checkDag index w.depthBudget start ⟨[], []⟩ with
      | ok marks =>
        left
        refine ⟨?_, (checkDag_ok hI _ hcheck).2 (by simp [Marks.Sound])⟩
        simp [walkable, hindex, hlookup, hcheck, Except.mapError, bind, Except.bind, pure, Except.pure]
      | error h =>
        right
        rcases checkDag_error hI _ hcheck with ⟨e, rfl, hfault⟩ | hbudget
        · refine ⟨e, ?_, hfault⟩
          simp [walkable, hindex, hlookup, hcheck, Except.mapError, bind, Except.bind, Halt.toError]
        · exact absurd (fresh_lt_depthBudget w []) (Nat.not_lt.mpr hbudget)
  · left
    refine ⟨before, t, hrep, ?_⟩
    simp [walkable, herr, Except.mapError, bind, Except.bind]

/-- A workflow that can be walked starts at the one template of its entrypoint, which is finished. -/
theorem walkable_ok (h : w.walkable = .ok (index, start)) :
    w.IndexedBy index ∧ w.Finished start ∧ ∃ u, w.templates[start]? = some u ∧ u.name = w.entrypoint := by
  rcases w.walkable_cases with ⟨_, _, _, herr⟩ | ⟨_, _, herr⟩ | ⟨i, p, u, _, hI, hu, hname, ⟨hok, hfin⟩ | ⟨_, herr, _⟩⟩
  · rw [h] at herr
    cases herr
  · rw [h] at herr
    cases herr
  · rw [h] at hok
    cases hok
    exact ⟨hI, hfin, u, hu, hname⟩
  · rw [h] at herr
    cases herr

/-! ## The walk -/

/-- From a finished position there is a plan, and the walk carries it out. -/
theorem exists_visit_eq_ok (hI : w.IndexedBy index) (hfin : w.Finished start) (s : AugmentSettings) (ids : IdSource)
    (root : String) : ∃ plan, w.planFrom index s ids w.depthBudget start root [] = .ok plan ∧
      Walk.visit index s ids w.depthBudget start root (.ofWorkflow w) = .ok () (Walk.ofPlan w s plan) := by
  obtain ⟨plan, hplan⟩ := exists_planFrom_eq_ok hI s ids w.depthBudget root hfin.resolves (fresh_lt_depthBudget w _)
  exact ⟨plan, hplan, Walk.ofPlan_nil w s ▸ Walk.visit_ofPlan w.depthBudget hplan⟩

/-- What the check before the walk finds is the error of the augmentation, and nothing has been done by then. -/
theorem augment_of_error {e : AugmentError} (h : w.walkable = .error e) (s : AugmentSettings) (ids : IdSource)
    (root : String) : w.augment s ids root = ⟨w, .error e, augmentSpan root w.entrypoint, []⟩ := by
  rw [augment, h]

/-- What can become of an augmentation: the error of the check and nothing else, or a plan that is carried out. -/
theorem augment_cases (w : Workflow) (s : AugmentSettings) (ids : IdSource) (root : String) :
    (∃ e, w.walkable = .error e ∧ w.augment s ids root = ⟨w, .error e, augmentSpan root w.entrypoint, []⟩) ∨
      ∃ index start plan, w.walkable = .ok (index, start) ∧
        w.planFrom index s ids w.depthBudget start root [] = .ok plan ∧
        w.augment s ids root = ⟨w.follow s plan, .ok (w.planReport s plan), augmentSpan root w.entrypoint,
          plan.flatMap (w.stepEvents s) ++ [.finished (w.planReport s plan)]⟩ := by
  cases hwalk : w.walkable with
  | error e =>
    left
    exact ⟨e, rfl, augment_of_error hwalk s ids root⟩
  | ok found =>
    obtain ⟨index, start⟩ := found
    obtain ⟨hI, hfin, -⟩ := walkable_ok hwalk
    obtain ⟨plan, hplan, hvisit⟩ := exists_visit_eq_ok hI hfin s ids root
    right
    exact ⟨index, start, plan, rfl, hplan, by simp [augment, hwalk, hvisit, Walk.ofPlan]⟩

/-- An augmentation that goes through has carried out the plan that starts at the one template of the entrypoint. -/
theorem augment_ok {root : String} {r : Report} (h : (w.augment s ids root).result = .ok r) :
    ∃ index start u plan, w.IndexedBy index ∧ w.templates[start]? = some u ∧ u.name = w.entrypoint ∧
      w.planFrom index s ids w.depthBudget start root [] = .ok plan ∧
      (w.augment s ids root).workflow = w.follow s plan := by
  rcases w.augment_cases s ids root with ⟨e, _, heq⟩ | ⟨index, start, plan, hwalk, hplan, heq⟩
  · rw [heq] at h
    cases h
  · obtain ⟨hI, -, u, hu, hname⟩ := walkable_ok hwalk
    exact ⟨index, start, u, plan, hI, hu, hname, hplan, by rw [heq]⟩

/-! ## The verdict -/

/-- Whether an augmentation goes through, and with which error it fails. A repeated name is looked for first, then the
template of the entrypoint. If these are in order, the augmentation goes through exactly if every task of every dag that is
reached invokes a template that exists and no dag that is reached leads back to itself; and if it does not, the error is
about a task or a dag that is reached and of which one of these is not so. -/
theorem augment_verdict (w : Workflow) (s : AugmentSettings) (ids : IdSource) (root : String) :
    (¬w.names.Nodup → ∃ before t, w.RepeatsFirst before t ∧
      (w.augment s ids root).result = .error (.manifest (.duplicateTemplate t.name))) ∧
    (w.names.Nodup → w.entrypoint ∉ w.names →
      (w.augment s ids root).result = .error (.unknownTemplate .entrypoint w.entrypoint)) ∧
    (w.names.Nodup → w.entrypoint ∈ w.names →
      ((∃ r, (w.augment s ids root).result = .ok r) ↔
        (∀ p t, w.Reaches p → w.templates[p]? = some t → ∀ task ∈ t.tasks, task.template ∈ w.names) ∧
          ∀ p, w.Reaches p → ¬Relation.TransGen w.Invokes p p) ∧
      ∀ e, (w.augment s ids root).result = .error e →
        (∃ p t task, w.Reaches p ∧ w.templates[p]? = some t ∧ task ∈ t.tasks ∧ task.template ∉ w.names ∧
          e = .unknownTemplate (.task task.name) task.template) ∨
        ∃ p t, w.Reaches p ∧ w.templates[p]? = some t ∧ t.isDag ∧ Relation.TransGen w.Invokes p p ∧
          e = .dagCycle t.name) := by
  rcases w.walkable_cases with ⟨before, t, hrep, herr⟩ | ⟨hnd, hnone, herr⟩ |
    ⟨index, start, u, hnd, hI, hu, hname, hcases⟩
  · refine ⟨fun _ => ⟨before, t, hrep, by rw [augment_of_error herr]⟩, ?_, ?_⟩
    · intro hnd
      exact absurd hnd hrep.not_nodup
    · intro hnd
      exact absurd hnd hrep.not_nodup
  · refine ⟨fun h => absurd hnd h, fun _ _ => by rw [augment_of_error herr], ?_⟩
    intro _ hmem
    exact absurd hmem hnone
  · have hmem : w.entrypoint ∈ w.names := hname ▸ List.mem_map_of_mem (List.mem_of_getElem? hu)
    refine ⟨fun h => absurd hnd h, fun _ h => absurd hmem h, ?_⟩
    intro _ _
    rw [← hI.finished_iff hu hname]
    rcases hcases with ⟨hok, hfin⟩ | ⟨e, herr, hfault⟩
    · rcases w.augment_cases s ids root with ⟨e, he, -⟩ | ⟨_, _, plan, _, _, heq⟩
      · rw [hok] at he
        cases he
      · refine ⟨⟨fun _ => hfin, fun _ => ⟨_, by rw [heq]⟩⟩, ?_⟩
        intro e he
        rw [heq] at he
        cases he
    · rw [augment_of_error herr]
      refine ⟨⟨?_, fun h => absurd h hfault.not_finished⟩, ?_⟩
      · rintro ⟨r, hr⟩
        cases hr
      · intro e' he'
        cases he'
        exact hI.reached_of_fault hu hname hfault

/-! ## Atomicity -/

/-- An augmentation that fails leaves the workflow as it was. This is because a walk behind a check that has gone through
goes through as well. -/
theorem augment_atomic (w : Workflow) (s : AugmentSettings) (ids : IdSource) (root : String) :
    (∀ e, (w.augment s ids root).result = .error e → (w.augment s ids root).workflow = w) ∧
    ∀ index start marks, w.index = .ok index → index.lookup w.entrypoint = some start →
      w.checkDag index w.depthBudget start ⟨[], []⟩ = .ok marks →
      ∃ walk, Walk.visit index s ids w.depthBudget start root (.ofWorkflow w) = .ok () walk := by
  refine ⟨?_, ?_⟩
  · intro e he
    rcases w.augment_cases s ids root with ⟨_, _, heq⟩ | ⟨_, _, _, _, _, heq⟩
    · rw [heq]
    · rw [heq] at he
      cases he
  · intro index start marks hindex hlookup hcheck
    have hI : w.IndexedBy index := (index_ok hindex).2
    have hfin : w.Finished start := (checkDag_ok hI _ hcheck).2 (by simp [Marks.Sound])
    obtain ⟨plan, _, hvisit⟩ := exists_visit_eq_ok hI hfin s ids root
    exact ⟨_, hvisit⟩

end Workflow

end WorkflowAugment

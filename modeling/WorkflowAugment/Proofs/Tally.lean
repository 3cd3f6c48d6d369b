import Mathlib.Algebra.BigOperators.Group.Finset.Basic
import WorkflowAugment.Proofs.Verdict

/-!
# What a report counts

A walk adds to its report at three places, some of them before it knows whether it has been to the template. `planFrom_once`
says that its plan augments no container and enters no dag twice, so what the report adds up is the number of templates that
are reached, each counted once however many tasks invoke it (`augment_report`).
-/

namespace WorkflowAugment

/-! ## Steps that are taken once -/

namespace Plan

/-- The plan augments no container twice and enters no dag twice. -/
structure Once (plan : Plan) : Prop where
  containers : plan.containers.Nodup
  dags : plan.dags.Nodup

variable {plan : Plan} {pos : Nat} {id : String}

theorem once_nil : Once [] := ⟨List.nodup_nil, List.nodup_nil⟩

/-- Meeting a container keeps a plan from augmenting one twice. -/
theorem Once.meetContainer (h : plan.Once) (pos : Nat) (t : Template) : (plan.meetContainer pos t).Once := by
  unfold Plan.meetContainer
  split
  · rename_i hnew
    refine ⟨?_, by simpa using h.dags⟩
    rw [containers_append, containers_container]
    exact h.containers.append (List.nodup_singleton pos) (by simpa using hnew.2)
  · exact h

/-- Meeting a dag again keeps a plan from entering one twice. -/
theorem Once.again (h : plan.Once) (pos : Nat) : Once (plan ++ [.again pos]) :=
  ⟨by simpa using h.containers, by simpa using h.dags⟩

/-- Entering a dag that is new keeps a plan from entering one twice. -/
theorem Once.enter (h : plan.Once) (hpos : pos ∉ plan.dags) : Once (plan ++ [.dag pos id]) := by
  refine ⟨by simpa using h.containers, ?_⟩
  rw [dags_append, dags_dag]
  exact h.dags.append (List.nodup_singleton pos) (by simpa using hpos)

end Plan

namespace Workflow

variable {w : Workflow} {index : Index} {s : AugmentSettings} {ids : IdSource}

/-- A visit adds no step to a plan that is there already, be it before or behind it. -/
theorem planFrom_once (budget : Nat) :
    ∀ {pos : Nat} {id : String} {plan plan' : Plan}, w.planFrom index s ids budget pos id plan = .ok plan' →
      plan.Once → plan'.Once := by
  induction budget with
  | zero => intro pos id plan plan' h; cases h
  | succ budget ih =>
    intro pos id plan plan' h honce
    rcases planFrom_eq_ok h with ⟨-, rfl⟩ | ⟨t, -, ⟨-, rfl⟩ | ⟨-, -, rfl⟩ | ⟨-, hpos, children, -, hfold⟩⟩
    · exact honce
    · exact honce.meetContainer pos t
    · exact (honce.meetContainer pos t).again pos
    · have henter : Plan.Once (plan.meetContainer pos t ++ [.dag pos id]) :=
        (honce.meetContainer pos t).enter (by rwa [Plan.dags_meetContainer])
      obtain ⟨hkept, -⟩ := Chain.foldlM_ok (R := fun a b : Plan => a.Once → b.Once) (Q := fun _ _ _ => True)
        (fun _ h => h) (fun h h' => h' ∘ h) (fun _ _ _ => trivial) (fun _ _ _ _ hc => ⟨ih hc, trivial⟩) hfold
      exact hkept henter

/-! ## Adding up -/

/-- How many tasks the dag at a position has. -/
def taskCount (w : Workflow) (p : Nat) : Nat := w.templates[p]?.elim 0 (·.tasks.length)

/-- The hooks of a plan are the tasks of the dags that it enters, if there is an exit template. -/
theorem sum_stepHooks (w : Workflow) (s : AugmentSettings) (plan : Plan) :
    (plan.map (w.stepHooks s)).sum = if s.exitTemplate ≠ "" then (plan.dags.map w.taskCount).sum else 0 := by
  induction plan with
  | nil => simp
  | cons step plan ih =>
    rw [List.map_cons, List.sum_cons, ih]
    cases step with
    | container p => simp [stepHooks, Plan.dags, List.filterMap_cons, Step.dag?]
    | again p => simp [stepHooks, Plan.dags, List.filterMap_cons, Step.dag?]
    | dag p id =>
      by_cases hexit : s.exitTemplate = ""
      · simp [stepHooks, AugmentSettings.attaches, hexit]
      · simp [stepHooks, AugmentSettings.attaches, hexit, Plan.dags, Step.dag?, taskCount]

/-- The report of an augmentation that goes through: how many of the templates that are reached have a container, how many
have a dag, and, if there is an exit template, how many tasks these dags have altogether. Templates are counted by their
positions, so one that several tasks invoke counts once. -/
theorem augment_report {root : String} {r : Report} (h : (w.augment s ids root).result = .ok r) :
    ∃ containers dags : Finset Nat,
      (∀ p, p ∈ containers ↔ w.Reaches p ∧ ∃ t, w.templates[p]? = some t ∧ t.container.isSome) ∧
      (∀ p, p ∈ dags ↔ w.Reaches p ∧ ∃ t, w.templates[p]? = some t ∧ t.isDag) ∧
      r.containers = containers.card ∧
      r.dags = dags.card ∧
      r.hooks = if s.exitTemplate ≠ "" then ∑ p ∈ dags, w.taskCount p else 0 := by
  rcases w.augment_cases s ids root with ⟨_, _, heq⟩ | ⟨index, start, plan, hwalk, hplan, heq⟩
  · rw [heq] at h
    cases h
  · obtain ⟨hI, -, u, hu, hname⟩ := walkable_ok hwalk
    obtain ⟨hgrown, hcovers⟩ := planFrom_grown hI _ hplan
    have honce : plan.Once := planFrom_once _ hplan Plan.once_nil
    have hr : r = w.planReport s plan := by
      rw [heq] at h
      exact (Except.ok.inj h).symm
    refine ⟨plan.containers.toFinset, plan.dags.toFinset, ?_, ?_, ?_, ?_, ?_⟩
    · intro p
      rw [List.mem_toFinset, hI.reaches_iff hu hname]
      constructor
      · intro hp
        obtain hnil | ⟨t, ht, hsuits, hreach⟩ := hgrown.reached _ (Plan.mem_containers_iff.mp hp)
        · cases hnil
        · exact ⟨hreach, t, ht, hsuits⟩
      · rintro ⟨hreach, t, ht, hc⟩
        exact (hgrown.mem_containers_iff hcovers ht).mpr ⟨hc, hreach⟩
    · intro p
      rw [List.mem_toFinset, hI.reaches_iff hu hname]
      constructor
      · intro hp
        obtain ⟨id, hid⟩ := Plan.mem_dags_iff.mp hp
        obtain hnil | ⟨t, ht, hsuits, hreach⟩ := hgrown.reached _ hid
        · cases hnil
        · exact ⟨hreach, t, ht, hsuits⟩
      · rintro ⟨hreach, t, ht, hd⟩
        exact (hgrown.mem_dags_iff hcovers ht).mpr ⟨hd, hreach⟩
    · rw [hr, List.toFinset_card_of_nodup honce.containers]
      rfl
    · rw [hr, List.toFinset_card_of_nodup honce.dags]
      rfl
    · rw [hr, List.sum_toFinset _ honce.dags]
      exact sum_stepHooks w s plan

/-- In the example a container and a dag that two tasks invoke count once each. -/
theorem augment_report_sharing :
    (sharing.augment ⟨.disabled, ⟨"", ""⟩, some "notify"⟩ .path "root").result = .ok ⟨1, 3, 5⟩ ∧
    ∃ containers dags : Finset Nat, 3 ∈ containers ∧ 2 ∈ dags ∧ containers.card = 1 ∧ dags.card = 3 ∧
      ∑ p ∈ dags, sharing.taskCount p = 5 := by
  have hok : (sharing.augment ⟨.disabled, ⟨"", ""⟩, some "notify"⟩ .path "root").result = .ok ⟨1, 3, 5⟩ := rfl
  obtain ⟨containers, dags, hcontainers, hdags, hc, hd, hh⟩ := augment_report hok
  have hleaf : sharing.Reaches 3 :=
    ⟨0, _, rfl, rfl, .single ⟨_, _, rfl, rfl, _, List.mem_of_getElem? (i := 2) rfl, rfl⟩⟩
  have hshared : sharing.Reaches 2 :=
    ⟨0, _, rfl, rfl, .single ⟨_, _, rfl, rfl, _, List.mem_of_getElem? (i := 1) rfl, rfl⟩⟩
  exact ⟨hok, containers, dags, (hcontainers 3).mpr ⟨hleaf, _, rfl, rfl⟩, (hdags 2).mpr ⟨hshared, _, rfl, rfl⟩,
    hc.symm, hd.symm, hh.symm⟩

end Workflow

end WorkflowAugment

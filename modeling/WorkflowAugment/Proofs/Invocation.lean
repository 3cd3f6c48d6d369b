import Mathlib.Data.Finset.Card
import Mathlib.Data.List.Basic
import Mathlib.Logic.Relation
import WorkflowAugment.Proofs.Index

/-!
# Which templates invoke which

The tasks of a workflow make its positions a graph: `Invokes` is one step in it, and `Reaches` says where the steps lead
from the entrypoint. A position is finished if nothing can go wrong behind it: `finished_of_invokes` builds that up from
what the position invokes, so a search that comes back from all of these need not look for a way round to where it
started.
-/

namespace WorkflowAugment

namespace Workflow

/-- The dag at one position has a task that invokes the template at another. -/
def Invokes (w : Workflow) (p q : Nat) : Prop :=
  ∃ t u, w.templates[p]? = some t ∧ w.templates[q]? = some u ∧ ∃ task ∈ t.tasks, task.template = u.name

/-- Invocations lead from the template of the entrypoint to a position, in no step or more. -/
def Reaches (w : Workflow) (p : Nat) : Prop :=
  ∃ start t, w.templates[start]? = some t ∧ t.name = w.entrypoint ∧ Relation.ReflTransGen w.Invokes start p

/-- Wherever invocations lead from a position, every task invokes a template that exists, and no way leads back to where
it began. -/
structure Finished (w : Workflow) (p : Nat) : Prop where
  resolves : ∀ q t, Relation.ReflTransGen w.Invokes p q → w.templates[q]? = some t →
    ∀ task ∈ t.tasks, task.template ∈ w.names
  acyclic : ∀ q, Relation.ReflTransGen w.Invokes p q → ¬Relation.TransGen w.Invokes q q

variable {w : Workflow} {index : Index} {p q : Nat} {t : Template}

/-- What the dag at a position invokes is what its tasks resolve to. -/
theorem IndexedBy.invokes_iff (hI : w.IndexedBy index) (ht : w.templates[p]? = some t) :
    w.Invokes p q ↔ ∃ task ∈ t.tasks, index.lookup task.template = some q := by
  constructor
  · rintro ⟨t', u, ht', hu, task, htask, hname⟩
    rw [ht] at ht'
    cases ht'
    exact ⟨task, htask, (hI _ q).mpr ⟨u, hu, hname.symm⟩⟩
  · rintro ⟨task, htask, hq⟩
    obtain ⟨u, hu, hname⟩ := (hI _ q).mp hq
    exact ⟨t, u, ht, hu, task, htask, hname.symm⟩

/-- Only a dag invokes anything. -/
theorem Invokes.isDag (h : w.Invokes p q) (ht : w.templates[p]? = some t) : t.isDag := by
  obtain ⟨t', _, ht', _, task, htask, _⟩ := h
  rw [ht] at ht'
  cases ht'
  unfold Template.isDag
  cases hd : t.dag with
  | none => simp [Template.tasks, hd] at htask
  | some dag => rfl

/-! ## Finished positions -/

/-- A position is finished if its own tasks resolve and all that it invokes is finished. A way back to it would go through
something it invokes, and lead from there to itself. -/
theorem finished_of_invokes (hres : ∀ t, w.templates[p]? = some t → ∀ task ∈ t.tasks, task.template ∈ w.names)
    (hfin : ∀ q, w.Invokes p q → w.Finished q) : w.Finished p := by
  refine ⟨?_, ?_⟩
  · intro q t hpq ht
    rcases hpq.cases_head with rfl | ⟨c, hpc, hcq⟩
    · exact hres t ht
    · exact (hfin c hpc).resolves q t hcq ht
  · intro q hpq hqq
    rcases hpq.cases_head with rfl | ⟨c, hpc, hcq⟩
    · obtain ⟨c, hpc, hcp⟩ := Relation.TransGen.head'_iff.mp hqq
      exact (hfin c hpc).acyclic c Relation.ReflTransGen.refl (Relation.TransGen.tail' hcp hpc)
    · exact (hfin c hpc).acyclic q hcq hqq

/-- A position with nothing to invoke is finished. -/
theorem finished_of_not_isDag (h : ∀ t, w.templates[p]? = some t → ¬t.isDag) : w.Finished p := by
  apply finished_of_invokes
  · intro t ht task htask
    have hd : t.dag = none := by simpa [Template.isDag] using h t ht
    simp [Template.tasks, hd] at htask
  · intro q hpq
    obtain ⟨t, _, ht, _⟩ := id hpq
    exact absurd (hpq.isDag ht) (h t ht)

/-! ## How many dags are left -/

/-- The positions that have a dag. -/
def dagPositions (w : Workflow) : List Nat := w.templates.findIdxs Template.isDag

/-- The positions of dags are those of templates with a dag. -/
theorem mem_dagPositions : p ∈ w.dagPositions ↔ ∃ t, w.templates[p]? = some t ∧ t.isDag := by
  rw [dagPositions, List.mem_findIdxs_iff_exists_getElem_pos]
  constructor
  · rintro ⟨hp, hd⟩
    exact ⟨_, List.getElem?_eq_getElem hp, hd⟩
  · rintro ⟨t, ht, hd⟩
    obtain ⟨hp, rfl⟩ := List.getElem?_eq_some_iff.mp ht
    exact ⟨hp, hd⟩

theorem mem_dagPositions_of_dag {dag : Dag} (ht : w.templates[p]? = some t) (hdag : t.dag = some dag) :
    p ∈ w.dagPositions :=
  mem_dagPositions.mpr ⟨t, ht, by simp [Template.isDag, hdag]⟩

/-- How many dags have not been met. -/
def fresh (w : Workflow) (met : List Nat) : Nat := (w.dagPositions.toFinset \ met.toFinset).card

/-- A budget for the depth covers all dags and one call more. -/
theorem fresh_lt_depthBudget (w : Workflow) (met : List Nat) : w.fresh met < w.depthBudget := by
  have hsub : w.fresh met ≤ w.dagPositions.toFinset.card := Finset.card_le_card Finset.sdiff_subset
  have hcard : w.dagPositions.toFinset.card ≤ w.dagPositions.length := List.toFinset_card_le _
  have hlen : w.dagPositions.length = w.dagCount := List.length_findIdxs
  rw [depthBudget]
  omega

/-- Whoever has met more has fewer dags left. -/
theorem fresh_le_fresh {met met' : List Nat} (h : met ⊆ met') : w.fresh met' ≤ w.fresh met := by
  apply Finset.card_le_card
  apply Finset.sdiff_subset_sdiff (Finset.Subset.refl _)
  intro x hx
  rw [List.mem_toFinset] at hx ⊢
  exact h hx

/-- Whoever meets a new dag has strictly fewer left. -/
theorem fresh_lt_fresh {met met' : List Nat} (h : met ⊆ met') (hp : p ∈ w.dagPositions) (hmet : p ∉ met)
    (hmet' : p ∈ met') : w.fresh met' < w.fresh met := by
  apply Finset.card_lt_card
  rw [Finset.ssubset_iff_of_subset]
  · exact ⟨p, by simp [hp, hmet], by simp [hmet']⟩
  · apply Finset.sdiff_subset_sdiff (Finset.Subset.refl _)
    intro x hx
    rw [List.mem_toFinset] at hx ⊢
    exact h hx

/-! ## An example -/

/-- A dag that is invoked from below by an earlier task and directly by a later one, and a container that tasks of two dags
invoke. -/
def sharing : Workflow :=
  .ofTemplates "main"
    [.ofDag "main" (.ofTasks [.invoking "deep" "middle", .invoking "direct" "shared", .invoking "last" "leaf"]),
      .ofDag "middle" (.ofTasks [.invoking "inner" "shared"]),
      .ofDag "shared" (.ofTasks [.invoking "work" "leaf"]),
      .ofContainer "leaf" default]

end Workflow

end WorkflowAugment

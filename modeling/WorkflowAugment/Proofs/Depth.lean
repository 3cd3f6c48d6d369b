import WorkflowAugment.Proofs.Search
import WorkflowAugment.Proofs.Stateful
import WorkflowAugment.Proofs.Walk

/-!
# How deep the recursions go

Both recursions over the dags are given a budget for their depth, and neither comes to the end of it: every level below a
dag is below one more dag that has been met, and there are only so many (`checkDag_exhausted`, `visit_exhausted`). A larger
budget then makes no difference (`checkDag_stable`, `visit_stable`), so what the recursions come to is what they would come
to without one. None of this needs the tasks to resolve or the dags to be without cycles.
-/

namespace WorkflowAugment

open Stateful

namespace Workflow

variable {w w' : Workflow} {index : Index} {p : Nat}

/-! ## The search -/

/-- A search runs out of its budget only if that is no more than the number of dags that it has not met. -/
theorem checkDag_exhausted (hI : w.IndexedBy index) {budget pos : Nat} {m : Marks}
    (h : w.checkDag index budget pos m = .error .exhausted) : budget ≤ w.fresh m.seen := by
  rcases checkDag_error hI budget h with ⟨e, he, -⟩ | hspent
  · cases he
  · exact hspent

/-- What a search can do: stop at the position, whatever its budget is, or follow all that a new dag there invokes. -/
theorem checkDag_cases (w : Workflow) (index : Index) (pos : Nat) (m : Marks) :
    (∃ r, ∀ budget, w.checkDag index (budget + 1) pos m = r) ∨
      pos ∈ w.dagPositions ∧ pos ∉ m.seen ∧ ∃ children : List Nat, ∀ budget,
        w.checkDag index (budget + 1) pos m =
          (children.foldlM (fun m child => w.checkDag index budget child m) ⟨pos :: m.onPath, pos :: m.seen⟩).map
            fun last => { last with onPath := last.onPath.erase pos } := by
  simp only [checkDag]
  cases ht : w.templates[pos]? with
  | none => exact Or.inl ⟨_, fun _ => rfl⟩
  | some t =>
    simp only
    cases hdag : t.dag with
    | none => exact Or.inl ⟨_, fun _ => rfl⟩
    | some dag =>
      simp only
      split
      · exact Or.inl ⟨_, fun _ => rfl⟩
      · split
        · exact Or.inl ⟨_, fun _ => rfl⟩
        · rename_i hnew
          cases dag.tasks.mapM index.resolve with
          | error h => exact Or.inl ⟨_, fun _ => rfl⟩
          | ok children =>
            exact Or.inr ⟨mem_dagPositions_of_dag ht hdag, hnew, children, fun _ => rfl⟩

/-- A search whose budget exceeds the number of dags that it has not met comes to the same with any larger one. -/
theorem checkDag_stable (hI : w.IndexedBy index) (budget : Nat) :
    ∀ {pos : Nat} {m : Marks} {more : Nat}, w.fresh m.seen < budget → budget ≤ more →
      w.checkDag index more pos m = w.checkDag index budget pos m := by
  induction budget with
  | zero => intro pos m more hbudget; omega
  | succ budget ih =>
    intro pos m more hbudget hmore
    obtain ⟨more, rfl⟩ : ∃ k, more = k + 1 := ⟨more - 1, by omega⟩
    rcases w.checkDag_cases index pos m with ⟨r, hr⟩ | ⟨hpos, hnew, children, hfollow⟩
    · rw [hr, hr]
    · have henter : w.fresh (pos :: m.seen) < w.fresh m.seen :=
        fresh_lt_fresh (List.subset_cons_self _ _) hpos hnew List.mem_cons_self
      rw [hfollow, hfollow]
      congr 1
      -- Entering the dag makes up for the level, and no search that goes through forgets a dag.
      apply Chain.foldlM_congr (P := fun m => w.fresh m.seen < budget)
      · intro child _ mid hmid
        refine ⟨ih hmid (by omega), fun last hlast => ?_⟩
        exact lt_of_le_of_lt (fresh_le_fresh (checkDag_ok hI budget hlast).1.seen) hmid
      · exact lt_of_lt_of_le henter (by omega)

/-- From any marks a search comes to an end, and to the same with every budget of one level more than there are dags. -/
theorem checkDag_ends (hI : w.IndexedBy index) {budget : Nat} (hbudget : w.depthBudget ≤ budget) (pos : Nat) (m : Marks) :
    w.checkDag index budget pos m ≠ .error .exhausted ∧
      w.checkDag index budget pos m = w.checkDag index w.depthBudget pos m := by
  have hfresh := fresh_lt_depthBudget w m.seen
  refine ⟨fun hspent => ?_, checkDag_stable hI _ hfresh hbudget⟩
  have hfew := checkDag_exhausted hI hspent
  omega

/-! ## Workflows with the same dags -/

/-- Workflows that have their dags at the same positions have the same positions of dags. -/
theorem dagPositions_congr (h : w'.templates.map Template.isDag = w.templates.map Template.isDag) :
    w'.dagPositions = w.dagPositions := by
  have hmap : ∀ w : Workflow, w.dagPositions = (w.templates.map Template.isDag).findIdxs id :=
    fun w => by rw [List.findIdxs_map, Function.id_comp, dagPositions]
  rw [hmap, hmap, h]

/-- A template that is put in the place of another has a dag exactly if that has one. -/
theorem map_isDag_setTemplate {t t' : Template} (ht : w.templates[p]? = some t) (h : t'.isDag = t.isDag) :
    (w.setTemplate p t').templates.map Template.isDag = w.templates.map Template.isDag := by
  obtain ⟨hlt, rfl⟩ := List.getElem?_eq_some_iff.mp ht
  have hself := List.set_getElem_self (show p < (w.templates.map Template.isDag).length by rwa [List.length_map])
  rw [List.getElem_map] at hself
  rw [setTemplate, List.map_set, h]
  exact hself

end Workflow

namespace Walk

variable {index : Index} {s : AugmentSettings} {ids : IdSource} {walk walk' walk'' : Walk} {pos : Nat} {id : String}

/-! ## The walk -/

/-- How a walk goes on: the dags of the workflow stay where they are, and those that have been entered are not forgotten. -/
structure Onward (walk walk' : Walk) : Prop where
  dagPositions : walk'.workflow.dagPositions = walk.workflow.dagPositions
  dags : walk.dags ⊆ walk'.dags

/-- How many dags a walk has not entered. -/
def ahead (walk : Walk) : Nat := walk.workflow.fresh walk.dags

theorem Onward.refl (walk : Walk) : walk.Onward walk := ⟨rfl, List.Subset.refl _⟩

/-- To go on twice is to go on. -/
theorem Onward.trans (h : walk.Onward walk') (h' : walk'.Onward walk'') : walk.Onward walk'' :=
  ⟨h'.dagPositions.trans h.dagPositions, List.Subset.trans h.dags h'.dags⟩

/-- A walk that goes on has no more dags ahead. -/
theorem Onward.ahead_le (h : walk.Onward walk') : walk'.ahead ≤ walk.ahead := by
  have hsame : walk'.ahead = walk.workflow.fresh walk'.dags := by rw [ahead, Workflow.fresh, h.dagPositions, Workflow.fresh]
  rw [hsame]
  exact Workflow.fresh_le_fresh h.dags

/-- To augment a container leaves the dags as they are. -/
theorem onward_meetContainer (s : AugmentSettings) (pos : Nat) (walk : Walk) : walk.Onward (walk.meetContainer s pos) := by
  unfold meetContainer
  split
  · exact .refl walk
  · rename_i t ht
    split
    · exact ⟨Workflow.dagPositions_congr (Workflow.map_isDag_setTemplate ht (by simp [Template.isDag])), List.Subset.refl _⟩
    · exact .refl walk

theorem onward_meetAgain (t : Template) (walk : Walk) : walk.Onward (walk.meetAgain t) := ⟨rfl, List.Subset.refl _⟩

theorem onward_countDag (walk : Walk) : walk.Onward walk.countDag := ⟨rfl, List.Subset.refl _⟩

/-- To enter a dag is to go on. -/
theorem onward_enterDag {t : Template} {dag : Dag} (ht : walk.workflow.templates[pos]? = some t) (hdag : t.dag = some dag)
    (id : String) (sweep : Sweep) : walk.Onward (walk.enterDag pos id t dag sweep) :=
  ⟨Workflow.dagPositions_congr (Workflow.map_isDag_setTemplate ht (by simp [Template.isDag, hdag])),
    List.subset_append_left _ _⟩

/-- A walk that enters a new dag has one fewer ahead. -/
theorem ahead_enterDag_lt {t : Template} {dag : Dag} (ht : walk.workflow.templates[pos]? = some t) (hdag : t.dag = some dag)
    (hnew : pos ∉ walk.dags) (id : String) (sweep : Sweep) : (walk.enterDag pos id t dag sweep).ahead < walk.ahead := by
  have honward := onward_enterDag ht hdag id sweep
  have hpos : pos ∈ walk.workflow.dagPositions := Workflow.mem_dagPositions_of_dag ht hdag
  rw [ahead, Workflow.fresh, honward.dagPositions, ← Workflow.fresh]
  exact Workflow.fresh_lt_fresh honward.dags hpos hnew (by simp [enterDag])

/-- The tasks of a dag do not exhaust a budget. -/
theorem across_ne_exhausted (index : Index) (s : AugmentSettings) (ids : IdSource) (id : String) (ts : List Task) :
    (Sweep.across index s ids id ts).children ≠ .error .exhausted := by
  induction ts with
  | nil => simp [Sweep.across]
  | cons t ts ih =>
    rw [Sweep.across]
    cases hres : index.resolve (s.augmentTask id t) with
    | error h =>
      obtain ⟨-, rfl⟩ := Index.resolve_eq_error_iff.mp hres
      simp
    | ok child =>
      cases hrest : (Sweep.across index s ids id ts).children with
      | error h => simpa [hrest, Except.map] using ih
      | ok children => simp [hrest, Except.map]

/-- A visit to a new dag stops behind its tasks if one of them does not resolve. -/
theorem visit_of_dangling {budget : Nat} {t : Template} {dag : Dag} {h : Halt}
    (ht : (walk.meetContainer s pos).workflow.templates[pos]? = some t) (hdag : t.dag = some dag)
    (hmem : pos ∉ (walk.meetContainer s pos).dags) (hsweep : (Sweep.across index s ids id dag.tasks).children = .error h) :
    visit index s ids (budget + 1) pos id walk =
      .error h ((walk.meetContainer s pos).enterDag pos id t dag (Sweep.across index s ids id dag.tasks)) := by
  simp only [visit_succ, ht, hdag, hmem, if_false, hsweep]

/-- What a visit can do, whatever its budget is: come to an end or to a task that does not resolve, and in either case the
walk has gone on; or enter a new dag and follow all that it invokes. -/
theorem visit_cases (index : Index) (s : AugmentSettings) (ids : IdSource) (pos : Nat) (id : String) (walk : Walk) :
    (∃ r, walk.Onward (final r) ∧ outcome r ≠ .error .exhausted ∧
      ∀ budget, visit index s ids (budget + 1) pos id walk = r) ∨
      ∃ (entered : Walk) (children : List (Nat × String)), walk.Onward entered ∧ entered.ahead < walk.ahead ∧
        ∀ budget, visit index s ids (budget + 1) pos id walk =
          (children.forM fun child => visit index s ids budget child.1 child.2) entered := by
  have hmeet := onward_meetContainer s pos walk
  cases ht : (walk.meetContainer s pos).workflow.templates[pos]? with
  | none => exact Or.inl ⟨.ok () _, hmeet, nofun, fun _ => visit_of_none ht⟩
  | some t =>
    by_cases hd : t.isDag
    · by_cases hmem : pos ∈ (walk.meetContainer s pos).dags
      · exact Or.inl ⟨.ok () _, hmeet.trans (onward_meetAgain t _), nofun, fun _ => visit_of_mem ht hd hmem⟩
      · obtain ⟨dag, hdag⟩ := Option.isSome_iff_exists.mp hd
        have henter := hmeet.trans (onward_enterDag ht hdag id (Sweep.across index s ids id dag.tasks))
        have hless := ahead_enterDag_lt ht hdag hmem id (Sweep.across index s ids id dag.tasks)
        cases hchildren : (Sweep.across index s ids id dag.tasks).children with
        | error h =>
          refine Or.inl ⟨.error h _, henter, ?_, fun _ => visit_of_dangling ht hdag hmem hchildren⟩
          intro heq
          cases heq
          exact across_ne_exhausted index s ids id dag.tasks hchildren
        | ok children =>
          refine Or.inr ⟨_, children, henter.trans (onward_countDag _), ?_, fun _ =>
            visit_of_sweep ht hdag hmem hchildren⟩
          exact lt_of_lt_of_le hless hmeet.ahead_le
    · exact Or.inl ⟨.ok () _, hmeet, nofun, fun _ => visit_of_not_isDag ht hd⟩

/-- A visit goes on, also where it fails. -/
theorem visit_onward (index : Index) (s : AugmentSettings) (ids : IdSource) (budget : Nat) :
    ∀ (child : Nat × String) (walk : Walk), walk.Onward (final (visit index s ids budget child.1 child.2 walk)) := by
  induction budget with
  | zero => intro child walk; exact .refl walk
  | succ budget ih =>
    intro child walk
    rcases visit_cases index s ids child.1 child.2 walk with ⟨r, honward, -, hr⟩ | ⟨entered, children, henter, -, hfollow⟩
    · rw [hr]
      exact honward
    · rw [hfollow]
      exact henter.trans (final_forM Onward.refl Onward.trans (fun child _ => ih child) entered)

/-- A visit runs out of its budget only if that is no more than the number of dags that are ahead. -/
theorem visit_exhausted (budget : Nat) :
    ∀ {pos : Nat} {id : String} {walk walk' : Walk}, visit index s ids budget pos id walk = .error .exhausted walk' →
      budget ≤ walk.ahead := by
  induction budget with
  | zero => intro pos id walk walk' _; exact Nat.zero_le _
  | succ budget ih =>
    intro pos id walk walk' h
    rcases visit_cases index s ids pos id walk with ⟨r, -, hr, heq⟩ | ⟨entered, children, -, hless, hfollow⟩
    · rw [← heq, h] at hr
      exact absurd rfl hr
    · rw [hfollow] at h
      obtain ⟨before, child, after, mid, -, hbefore, hchild⟩ := exists_of_forM_eq_error h
      have hmid : entered.Onward (final (before.forM (fun child => visit index s ids budget child.1 child.2) entered)) :=
        final_forM Onward.refl Onward.trans (fun child _ => visit_onward index s ids budget child) entered
      rw [hbefore] at hmid
      calc budget + 1 ≤ mid.ahead + 1 := Nat.succ_le_succ (ih hchild)
        _ ≤ entered.ahead + 1 := Nat.succ_le_succ hmid.ahead_le
        _ ≤ walk.ahead := hless

/-- A visit whose budget exceeds the number of dags that are ahead comes to the same with any larger one. -/
theorem visit_stable (budget : Nat) :
    ∀ {pos : Nat} {id : String} {walk : Walk} {more : Nat}, walk.ahead < budget → budget ≤ more →
      visit index s ids more pos id walk = visit index s ids budget pos id walk := by
  induction budget with
  | zero => intro pos id walk more hbudget; omega
  | succ budget ih =>
    intro pos id walk more hbudget hmore
    obtain ⟨more, rfl⟩ : ∃ k, more = k + 1 := ⟨more - 1, by omega⟩
    rcases visit_cases index s ids pos id walk with ⟨r, -, -, hr⟩ | ⟨entered, children, -, hless, hfollow⟩
    · rw [hr, hr]
    · rw [hfollow, hfollow]
      apply forM_congr (P := fun walk => walk.ahead < budget)
      · intro child _ mid hmid
        exact ⟨ih hmid (by omega), lt_of_le_of_lt (visit_onward index s ids budget child mid).ahead_le hmid⟩
      · omega

/-- From any state a visit comes to an end, and to the same with every budget of one level more than there are dags. -/
theorem visit_ends {budget : Nat} (hbudget : walk.workflow.depthBudget ≤ budget) (pos : Nat) (id : String) :
    outcome (visit index s ids budget pos id walk) ≠ .error .exhausted ∧
      visit index s ids budget pos id walk = visit index s ids walk.workflow.depthBudget pos id walk := by
  have hahead : walk.ahead < walk.workflow.depthBudget := Workflow.fresh_lt_depthBudget _ _
  refine ⟨fun hspent => ?_, visit_stable _ hahead hbudget⟩
  obtain ⟨walk', hrun⟩ := outcome_eq_error_iff.mp hspent
  have hfew := visit_exhausted budget hrun
  omega

end Walk

end WorkflowAugment

import WorkflowAugment.Proofs.Invocation
import WorkflowAugment.Proofs.Plan

/-!
# Where a plan goes

A plan that starts at a position goes where invocations lead from there, and nowhere else: its steps stand at positions
that are reached (`Plan.Grown.reached`), and once a dag is entered, all that it invokes is noted before the plan is done
(`Plan.Grown.closed`). `planFrom_grown` says that a visit adds no other steps, and `exists_planFrom_eq_ok` that it goes
through wherever the tasks resolve.
-/

namespace WorkflowAugment

/-! ## Plans that grow -/

/-- The step is one for the template: a container is needed to augment it, a dag to enter it or meet it again. -/
def Step.suits (t : Template) : Step → Bool
  | .container _ => t.container.isSome
  | .dag _ _ | .again _ => t.isDag

namespace Plan

/-- The plan has a step for the container and for the dag at a position, if there is one. -/
structure Covers (plan : Plan) (w : Workflow) (p : Nat) : Prop where
  container : ∀ t, w.templates[p]? = some t → t.container.isSome → p ∈ plan.containers
  dag : ∀ t, w.templates[p]? = some t → t.isDag → p ∈ plan.dags

/-- How a visit to a position adds to a plan: at its end, with steps where invocations lead from there, each for a template
that it suits, and with all that a new dag invokes. -/
structure Grown (w : Workflow) (p : Nat) (plan plan' : Plan) : Prop where
  isPrefix : plan <+: plan'
  reached : ∀ step ∈ plan', step ∈ plan ∨
    ∃ t, w.templates[step.pos]? = some t ∧ step.suits t ∧ Relation.ReflTransGen w.Invokes p step.pos
  closed : ∀ q ∈ plan'.dags, q ∈ plan.dags ∨ ∀ c, w.Invokes q c → plan'.Covers w c

variable {w : Workflow} {plan plan' plan'' : Plan} {p c : Nat} {t : Template}

/-- A plan that goes on meets the containers that have been met. -/
theorem containers_subset (h : plan <+: plan') : plan.containers ⊆ plan'.containers := by
  obtain ⟨more, rfl⟩ := h
  rw [containers_append]
  exact List.subset_append_left _ _

/-- A plan that goes on meets the dags that have been met. -/
theorem dags_subset (h : plan <+: plan') : plan.dags ⊆ plan'.dags := by
  obtain ⟨more, rfl⟩ := h
  rw [dags_append]
  exact List.subset_append_left _ _

/-- The identifier that a dag is entered with does not change any more. -/
theorem idAt?_mono (h : plan <+: plan') {id : String} (hid : plan.idAt? p = some id) : plan'.idAt? p = some id := by
  obtain ⟨more, rfl⟩ := h
  rw [idAt?_append, hid, Option.some_or]

/-- A position stands in the list of containers exactly if there is a step for it. -/
theorem mem_containers_iff : p ∈ plan.containers ↔ .container p ∈ plan := by
  unfold containers
  rw [List.mem_filterMap]
  constructor
  · rintro ⟨step, hstep, hp⟩
    cases step with
    | container q =>
      cases hp
      exact hstep
    | dag q id => cases hp
    | again q => cases hp
  · intro h
    exact ⟨_, h, rfl⟩

/-- A position stands in the list of dags exactly if there is a step that enters it. -/
theorem mem_dags_iff : p ∈ plan.dags ↔ ∃ id, .dag p id ∈ plan := by
  unfold dags
  rw [List.mem_filterMap]
  constructor
  · rintro ⟨step, hstep, hp⟩
    cases step with
    | dag q id =>
      cases hp
      exact ⟨id, hstep⟩
    | container q => cases hp
    | again q => cases hp
  · rintro ⟨id, h⟩
    exact ⟨_, h, rfl⟩

/-- What a plan covers is covered by one that goes on. -/
theorem Covers.mono (h : plan.Covers w p) (hp : plan <+: plan') : plan'.Covers w p :=
  ⟨fun t ht hc => containers_subset hp (h.container t ht hc), fun t ht hd => dags_subset hp (h.dag t ht hd)⟩

theorem Grown.refl (w : Workflow) (p : Nat) (plan : Plan) : plan.Grown w p plan :=
  ⟨List.prefix_refl plan, fun _ h => Or.inl h, fun _ h => Or.inl h⟩

/-- What a plan has grown by in two stretches, it has grown by in one. -/
theorem Grown.trans (h : plan.Grown w p plan') (h' : plan'.Grown w p plan'') : plan.Grown w p plan'' := by
  refine ⟨h.isPrefix.trans h'.isPrefix, ?_, ?_⟩
  · intro step hstep
    rcases h'.reached step hstep with hold | hnew
    · exact h.reached step hold
    · exact Or.inr hnew
  · intro q hq
    rcases h'.closed q hq with hold | hnew
    · rcases h.closed q hold with hold | hnew
      · exact Or.inl hold
      · exact Or.inr fun c hqc => (hnew c hqc).mono h'.isPrefix
    · exact Or.inr hnew

/-- What is reached from something that a dag invokes is reached from the dag. -/
theorem Grown.of_invokes (hpc : w.Invokes p c) (h : plan.Grown w c plan') : plan.Grown w p plan' := by
  refine ⟨h.isPrefix, ?_, h.closed⟩
  intro step hstep
  rcases h.reached step hstep with hold | ⟨t, ht, hsuits, hreach⟩
  · exact Or.inl hold
  · exact Or.inr ⟨t, ht, hsuits, .head hpc hreach⟩

/-- A step at a position, if it enters no dag there, is one that a visit may add. -/
theorem grown_append (w : Workflow) (plan : Plan) (step : Step) (ht : w.templates[step.pos]? = some t)
    (hsuits : step.suits t) (hdag : step.dag? = none) : plan.Grown w step.pos (plan ++ [step]) := by
  refine ⟨List.prefix_append plan _, ?_, ?_⟩
  · intro s hs
    rcases List.mem_append.mp hs with hold | hnew
    · exact Or.inl hold
    · rw [List.mem_singleton] at hnew
      subst hnew
      exact Or.inr ⟨t, ht, hsuits, .refl⟩
  · intro q hq
    left
    simpa [dags, hdag] using hq

/-- A new dag is entered, and the plan grows from there by what the dag invokes. -/
theorem Grown.of_entered {id : String} (ht : w.templates[p]? = some t) (hdag : t.isDag)
    (h : Grown w p (plan ++ [.dag p id]) plan') (hinvoked : ∀ c, w.Invokes p c → plan'.Covers w c) :
    plan.Grown w p plan' := by
  refine ⟨(List.prefix_append plan _).trans h.isPrefix, ?_, ?_⟩
  · intro step hstep
    rcases h.reached step hstep with hold | hnew
    · rcases List.mem_append.mp hold with hold | hstep
      · exact Or.inl hold
      · rw [List.mem_singleton] at hstep
        subst hstep
        exact Or.inr ⟨t, ht, hdag, .refl⟩
    · exact Or.inr hnew
  · intro q hq
    rcases h.closed q hq with hold | hnew
    · rw [dags_append, dags_dag, List.mem_append, List.mem_singleton] at hold
      rcases hold with hold | rfl
      · exact Or.inl hold
      · exact Or.inr hinvoked
    · exact Or.inr hnew

/-- What a plan needs in order to cover a position: steps for the template there. -/
theorem Covers.of_getElem? (ht : w.templates[p]? = some t) (hcontainer : t.container.isSome → p ∈ plan.containers)
    (hdag : t.isDag → p ∈ plan.dags) : plan.Covers w p := by
  refine ⟨?_, ?_⟩
  · intro u hu
    rw [ht] at hu
    cases hu
    exact hcontainer
  · intro u hu
    rw [ht] at hu
    cases hu
    exact hdag

/-- Meeting a container adds the step for it, unless the plan has it. -/
theorem grown_meetContainer (plan : Plan) (ht : w.templates[p]? = some t) :
    plan.Grown w p (plan.meetContainer p t) ∧ (t.container.isSome → p ∈ (plan.meetContainer p t).containers) := by
  unfold meetContainer
  split
  · rename_i h
    exact ⟨grown_append w plan (.container p) ht h.1 rfl, fun _ => by simp⟩
  · rename_i h
    refine ⟨.refl w p plan, fun hc => ?_⟩
    by_contra hp
    exact h ⟨hc, hp⟩

end Plan

/-! ## A whole visit -/

namespace Workflow

variable {w : Workflow} {index : Index} {s : AugmentSettings} {ids : IdSource} {p : Nat} {t : Template}

/-- What a visit follows behind the tasks of a dag is what the dag invokes. -/
theorem IndexedBy.of_mapM_children (hI : w.IndexedBy index) (ht : w.templates[p]? = some t) {id : String}
    {children : List (Nat × String)}
    (h : t.tasks.mapM (fun task => (index.resolve task).map (·, ids id (s.augmentTask id task))) = .ok children)
    (q : Nat) : (∃ child ∈ children, child.1 = q) ↔ w.Invokes p q := by
  rw [hI.invokes_iff ht]
  constructor
  · rintro ⟨child, hchild, rfl⟩
    obtain ⟨task, htask, hres⟩ := (Chain.mem_of_mapM_eq_ok h child).mp hchild
    obtain ⟨pos, hpos, rfl⟩ := Chain.map_eq_ok_iff.mp hres
    exact ⟨task, htask, Index.resolve_eq_ok_iff.mp hpos⟩
  · rintro ⟨task, htask, hlookup⟩
    refine ⟨(q, ids id (s.augmentTask id task)), (Chain.mem_of_mapM_eq_ok h _).mpr ⟨task, htask, ?_⟩, rfl⟩
    exact Chain.map_eq_ok_iff.mpr ⟨q, Index.resolve_eq_ok_iff.mpr hlookup, rfl⟩

/-- If all tasks invoke templates that exist, a visit finds what to follow. -/
theorem IndexedBy.exists_mapM_children (hI : w.IndexedBy index) (s : AugmentSettings) (ids : IdSource) (id : String)
    {ts : List Task} (h : ∀ task ∈ ts, task.template ∈ w.names) :
    ∃ children, ts.mapM (fun task => (index.resolve task).map (·, ids id (s.augmentTask id task))) = .ok children := by
  apply Chain.exists_mapM_eq_ok
  intro task htask
  have hsome : index.lookup task.template ≠ none := mt hI.lookup_eq_none_iff.mp (not_not.mpr (h task htask))
  obtain ⟨q, hq⟩ := Option.ne_none_iff_exists'.mp hsome
  exact ⟨_, Chain.map_eq_ok_iff.mpr ⟨q, Index.resolve_eq_ok_iff.mpr hq, rfl⟩⟩

/-- A visit to a position adds to the plan what there is to do at the position and behind it. -/
theorem planFrom_grown (hI : w.IndexedBy index) (budget : Nat) :
    ∀ {p : Nat} {id : String} {plan plan' : Plan}, w.planFrom index s ids budget p id plan = .ok plan' →
      plan.Grown w p plan' ∧ plan'.Covers w p := by
  induction budget with
  | zero => intro p id plan plan' h; cases h
  | succ budget ih =>
    intro p id plan plan' h
    rcases planFrom_eq_ok h with ⟨hnone, rfl⟩ | ⟨t, ht, hcases⟩
    · exact ⟨.refl w p _, ⟨fun u hu => absurd hu (by simp [hnone]), fun u hu => absurd hu (by simp [hnone])⟩⟩
    · obtain ⟨hmeet, hcontainer⟩ := Plan.grown_meetContainer plan ht
      rcases hcases with ⟨hdag, rfl⟩ | ⟨hdag, hpos, rfl⟩ | ⟨hdag, -, children, hres, hfold⟩
      · exact ⟨hmeet, .of_getElem? ht hcontainer fun hd => absurd hd hdag⟩
      · have hagain := Plan.grown_append w (plan.meetContainer p t) (.again p) ht hdag rfl
        refine ⟨hmeet.trans hagain, .of_getElem? ht ?_ fun _ => by simp [hpos]⟩
        exact fun hc => Plan.containers_subset hagain.isPrefix (hcontainer hc)
      · have hinvokes := hI.of_mapM_children ht hres
        -- What one child adds is not touched by its younger siblings, so in the end all of them are covered.
        obtain ⟨hgrown, hchildren⟩ := Chain.foldlM_ok (Q := fun _ child last => last.Covers w child.1)
          (Plan.Grown.refl w p) Plan.Grown.trans (fun _ hQ hR => hQ.mono hR.isPrefix)
          (fun child hchild _ _ hc =>
            ⟨(ih hc).1.of_invokes ((hinvokes child.1).mp ⟨child, hchild, rfl⟩), (ih hc).2⟩) hfold
        have hentered : (plan.meetContainer p t).Grown w p plan' := by
          refine .of_entered ht hdag hgrown ?_
          intro c hpc
          obtain ⟨child, hchild, rfl⟩ := (hinvokes c).mpr hpc
          exact hchildren child hchild
        refine ⟨hmeet.trans hentered, .of_getElem? ht ?_ fun _ => Plan.dags_subset hgrown.isPrefix (by simp)⟩
        exact fun hc => Plan.containers_subset hentered.isPrefix (hcontainer hc)

/-- Entering a dag that is new leaves one fewer. -/
theorem fresh_enter_lt {plan : Plan} (ht : w.templates[p]? = some t) (hdag : t.isDag) (hpos : p ∉ plan.dags)
    (id : String) : w.fresh (Plan.dags (plan.meetContainer p t ++ [.dag p id])) < w.fresh plan.dags :=
  fresh_lt_fresh (by simp) (mem_dagPositions.mpr ⟨t, ht, hdag⟩) hpos (by simp)

/-- A visit goes through if every task behind the position resolves and the budget exceeds the number of dags that have not
been entered. -/
theorem exists_planFrom_eq_ok (hI : w.IndexedBy index) (s : AugmentSettings) (ids : IdSource) (budget : Nat) :
    ∀ {p : Nat} (id : String) {plan : Plan},
      (∀ q t, Relation.ReflTransGen w.Invokes p q → w.templates[q]? = some t →
        ∀ task ∈ t.tasks, task.template ∈ w.names) →
      w.fresh plan.dags < budget → ∃ plan', w.planFrom index s ids budget p id plan = .ok plan' := by
  induction budget with
  | zero => intro p id plan _ h; omega
  | succ budget ih =>
    intro p id plan hnames hbudget
    rw [planFrom]
    cases ht : w.templates[p]? with
    | none => exact ⟨plan, rfl⟩
    | some t =>
      by_cases hdag : t.isDag
      · by_cases hpos : p ∈ plan.dags
        · simp only [hdag, hpos, not_true, if_true, if_false]
          exact ⟨_, rfl⟩
        · simp only [hdag, hpos, not_true, if_false]
          obtain ⟨children, hres⟩ := hI.exists_mapM_children s ids id (hnames p t .refl ht)
          rw [hres]
          -- Entering the dag makes up for the unit of the budget, and no visit gives back a dag that has been entered.
          have hstart := lt_of_lt_of_le (fresh_enter_lt ht hdag hpos id) (Nat.lt_succ_iff.mp hbudget)
          refine Chain.exists_foldlM_eq_ok (P := fun plan => w.fresh plan.dags < budget) ?_ hstart
          intro child hchild mid hmid
          have hpc : w.Invokes p child.1 := (hI.of_mapM_children ht hres child.1).mp ⟨child, hchild, rfl⟩
          obtain ⟨last, hlast⟩ := ih child.2 (fun q u hcq => hnames q u (.head hpc hcq)) hmid
          refine ⟨last, hlast, lt_of_le_of_lt ?_ hmid⟩
          exact fresh_le_fresh (Plan.dags_subset (planFrom_grown hI budget hlast).1.isPrefix)
      · simp only [hdag]
        exact ⟨_, rfl⟩

end Workflow

/-! ## A whole plan -/

namespace Plan

variable {w : Workflow} {plan : Plan} {start p : Nat} {t : Template}

/-- A plan from the beginning that covers where it starts covers all that is reached from there. -/
theorem Grown.covers (h : Grown w start [] plan) (hstart : plan.Covers w start)
    (hreach : Relation.ReflTransGen w.Invokes start p) : plan.Covers w p := by
  induction hreach with
  | refl => exact hstart
  | tail _ hbc ih =>
    obtain ⟨t, _, ht, _⟩ := id hbc
    rcases h.closed _ (ih.dag t ht (hbc.isDag ht)) with hnil | hclosed
    · cases hnil
    · exact hclosed _ hbc

/-- Of the containers, exactly those that are reached are augmented. -/
theorem Grown.mem_containers_iff (h : Grown w start [] plan) (hstart : plan.Covers w start)
    (ht : w.templates[p]? = some t) :
    p ∈ plan.containers ↔ t.container.isSome ∧ Relation.ReflTransGen w.Invokes start p := by
  constructor
  · intro hp
    rcases h.reached _ (Plan.mem_containers_iff.mp hp) with hnil | ⟨u, hu, hsuits, hreach⟩
    · cases hnil
    · rw [Step.pos, ht] at hu
      cases hu
      exact ⟨hsuits, hreach⟩
  · rintro ⟨hc, hreach⟩
    exact (h.covers hstart hreach).container t ht hc

/-- Of the dags, exactly those that are reached are entered. -/
theorem Grown.mem_dags_iff (h : Grown w start [] plan) (hstart : plan.Covers w start) (ht : w.templates[p]? = some t) :
    p ∈ plan.dags ↔ t.isDag ∧ Relation.ReflTransGen w.Invokes start p := by
  constructor
  · intro hp
    obtain ⟨id, hid⟩ := Plan.mem_dags_iff.mp hp
    rcases h.reached _ hid with hnil | ⟨u, hu, hsuits, hreach⟩
    · cases hnil
    · rw [Step.pos, ht] at hu
      cases hu
      exact ⟨hsuits, hreach⟩
  · rintro ⟨hd, hreach⟩
    exact (h.covers hstart hreach).dag t ht hd

end Plan

end WorkflowAugment

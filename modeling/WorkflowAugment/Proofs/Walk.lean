import WorkflowAugment.Proofs.Plan

/-!
# A walk carries out its plan

`visit` changes the workflow while it goes and resolves tasks that it has already changed. Seen from the plan none of that
matters: each thing that a visit does is one step more of the plan carried out (`meetContainer_ofPlan`, `meetAgain_ofPlan`,
`enterDag_ofPlan`), so a visit whose plan goes through goes through itself and leaves what its plan leaves.
-/

namespace WorkflowAugment

/-! ## The tasks of a dag -/

/-- A task resolves alike with its hook and without. -/
theorem Index.resolve_augmentTask (index : Index) (s : AugmentSettings) (id : String) (t : Task) :
    index.resolve (s.augmentTask id t) = index.resolve t := by
  simp [Index.resolve]

/-- A sweep over tasks that all resolve gives every task its hook. -/
theorem Sweep.across_eq {index : Index} {s : AugmentSettings} {ids : IdSource} {id : String} {ts : List Task} :
    ∀ {children : List (Nat × String)},
      ts.mapM (fun t => (index.resolve t).map (·, ids id (s.augmentTask id t))) = .ok children →
      Sweep.across index s ids id ts =
        ⟨ts.map (s.augmentTask id), if s.attaches then ts.length else 0, ts.flatMap (s.taskEvents id), .ok children⟩ := by
  induction ts with
  | nil =>
    intro children h
    cases h
    simp [Sweep.across]
  | cons t ts ih =>
    intro children h
    rw [List.mapM_cons] at h
    obtain ⟨child, hchild, h⟩ := Chain.bind_eq_ok_iff.mp h
    obtain ⟨rest, hrest, h⟩ := Chain.bind_eq_ok_iff.mp h
    cases h
    cases hres : index.resolve t with
    | error e => rw [hres] at hchild; cases hchild
    | ok pos =>
      rw [hres] at hchild
      cases hchild
      simp only [Sweep.across, Index.resolve_augmentTask, hres, ih hrest, Except.map, List.map_cons, List.flatMap_cons,
        List.length_cons]
      congr 1
      split <;> omega

namespace Walk

/-! ## One visit -/

section

variable {index : Index} {s : AugmentSettings} {ids : IdSource} {budget pos : Nat} {id : String} {walk : Walk} {t : Template}

/-- What one visit does, as a function of the walk before it. -/
theorem visit_succ (index : Index) (s : AugmentSettings) (ids : IdSource) (budget pos : Nat) (id : String) (walk : Walk) :
    visit index s ids (budget + 1) pos id walk =
      let met := walk.meetContainer s pos
      match met.workflow.templates[pos]? with
      | none => .ok () met
      | some t =>
        match t.dag with
        | none => .ok () met
        | some dag =>
          if pos ∈ met.dags then .ok () (met.meetAgain t)
          else
            let sweep := Sweep.across index s ids id dag.tasks
            let entered := met.enterDag pos id t dag sweep
            match sweep.children with
            | .error h => .error h entered
            | .ok children =>
              (children.forM fun child => visit index s ids budget child.1 child.2) entered.countDag := by
  have hget : ∀ walk : Walk, (get : EStateM Halt Walk Walk) walk = .ok walk walk := fun _ => rfl
  have hmodify : ∀ (f : Walk → Walk) (walk : Walk), (modify f : EStateM Halt Walk Unit) walk = .ok () (f walk) :=
    fun _ _ => rfl
  simp only [visit, bind, EStateM.bind, hget, hmodify]
  cases ht : (walk.meetContainer s pos).workflow.templates[pos]? with
  | none => rfl
  | some t =>
    cases hdag : t.dag with
    | none => simp only [hdag]; rfl
    | some dag =>
      simp only [hdag]
      split
      · rfl
      · cases (Sweep.across index s ids id dag.tasks).children <;> rfl

/-- A visit to no template does nothing. -/
theorem visit_of_none (h : (walk.meetContainer s pos).workflow.templates[pos]? = none) :
    visit index s ids (budget + 1) pos id walk = .ok () (walk.meetContainer s pos) := by
  simp only [visit_succ, h]

/-- A visit to a template without a dag ends with its container. -/
theorem visit_of_not_isDag (h : (walk.meetContainer s pos).workflow.templates[pos]? = some t) (hd : ¬t.isDag) :
    visit index s ids (budget + 1) pos id walk = .ok () (walk.meetContainer s pos) := by
  have hnone : t.dag = none := by simpa [Template.isDag] using hd
  simp only [visit_succ, h, hnone]

/-- A visit to a dag that the walk has been to ends there. -/
theorem visit_of_mem (h : (walk.meetContainer s pos).workflow.templates[pos]? = some t) (hd : t.isDag)
    (hmem : pos ∈ (walk.meetContainer s pos).dags) :
    visit index s ids (budget + 1) pos id walk = .ok () ((walk.meetContainer s pos).meetAgain t) := by
  obtain ⟨dag, hdag⟩ := Option.isSome_iff_exists.mp hd
  simp only [visit_succ, h, hdag, hmem, if_true]

/-- A visit to a new dag whose tasks all resolve follows them one after another. -/
theorem visit_of_sweep {dag : Dag} {children : List (Nat × String)}
    (h : (walk.meetContainer s pos).workflow.templates[pos]? = some t) (hdag : t.dag = some dag)
    (hmem : pos ∉ (walk.meetContainer s pos).dags)
    (hsweep : (Sweep.across index s ids id dag.tasks).children = .ok children) :
    visit index s ids (budget + 1) pos id walk =
      (children.forM fun child => visit index s ids budget child.1 child.2)
        ((walk.meetContainer s pos).enterDag pos id t dag (Sweep.across index s ids id dag.tasks)).countDag := by
  simp only [visit_succ, h, hdag, hmem, if_false, hsweep]

/-- Visits one after another go through if the first does and the others behind it. -/
theorem forM_cons_of_ok {f : Nat × String → EStateM Halt Walk Unit} {child : Nat × String}
    {children : List (Nat × String)} {mid : Walk} (h : f child walk = .ok () mid) :
    (child :: children).forM f walk = children.forM f mid := by
  simp [bind, EStateM.bind, h]

end

/-! ## Carrying out the plan -/

section

variable {w : Workflow} {s : AugmentSettings} {plan : Plan} {pos : Nat} {id : String} {t : Template}

/-- A walk without a plan is at the workflow itself. -/
@[simp] theorem ofPlan_nil (w : Workflow) (s : AugmentSettings) : ofPlan w s [] = ofWorkflow w := by
  have h : w.templates.mapIdx (Workflow.followAt s []) = w.templates := by
    apply List.ext_getElem?
    intro p
    rw [List.getElem?_mapIdx]
    cases w.templates[p]? <;> simp [Workflow.followAt, Plan.containers, Plan.idAt?]
  simp [ofPlan, ofWorkflow, Workflow.follow, Workflow.planReport, Plan.containers, Plan.dags, h]

/-- The template that a walk finds at a position. -/
theorem getElem?_ofPlan (ht : w.templates[pos]? = some t) :
    (ofPlan w s plan).workflow.templates[pos]? = some (Workflow.followAt s plan pos t) := by
  simp [ofPlan, Workflow.getElem?_follow, ht]

/-- Meeting a container carries out what the plan has for it. -/
theorem meetContainer_ofPlan (ht : w.templates[pos]? = some t) :
    (ofPlan w s plan).meetContainer s pos = ofPlan w s (plan.meetContainer pos t) := by
  unfold meetContainer Plan.meetContainer
  rw [getElem?_ofPlan ht]
  simp only [Workflow.isSome_container_followAt]
  by_cases hc : t.container.isSome ∧ pos ∉ plan.containers
  · have hevents : s.templateEvents (Workflow.followAt s plan pos t) = s.templateEvents t :=
      s.templateEvents_congr Workflow.name_followAt Workflow.isSome_container_followAt
    rw [if_pos hc, if_pos (by simpa [ofPlan] using hc)]
    simp [ofPlan, Workflow.follow_append (.container pos) ht, Step.pos, Workflow.followAt_container hc.2,
      Workflow.planReport, Workflow.stepHooks, Workflow.stepEvents, ht, hevents]
  · rw [if_neg hc, if_neg (by simpa [ofPlan] using hc)]

/-- Meeting a dag again carries out what the plan has for that. -/
theorem meetAgain_ofPlan (ht : w.templates[pos]? = some t) :
    (ofPlan w s plan).meetAgain (Workflow.followAt s plan pos t) = ofPlan w s (plan ++ [.again pos]) := by
  have hat : Workflow.followAt s (plan ++ [.again pos]) = Workflow.followAt s plan := by
    funext p u
    exact Workflow.followAt_congr (by simp) (by simp)
  simp [ofPlan, meetAgain, Workflow.follow, Workflow.planReport, Workflow.stepEvents, Workflow.stepHooks, hat, ht]

/-- Entering a dag carries out what the plan has for it. -/
theorem enterDag_ofPlan {index : Index} {ids : IdSource} {dag : Dag} {children : List (Nat × String)}
    (ht : w.templates[pos]? = some t) (hdag : t.dag = some dag) (hpos : pos ∉ plan.dags)
    (hsweep : Sweep.across index s ids id dag.tasks =
      ⟨dag.tasks.map (s.augmentTask id), if s.attaches then dag.tasks.length else 0,
        dag.tasks.flatMap (s.taskEvents id), .ok children⟩) :
    ((ofPlan w s plan).enterDag pos id (Workflow.followAt s plan pos t) dag
      (Sweep.across index s ids id dag.tasks)).countDag = ofPlan w s (plan ++ [.dag pos id]) := by
  have hfollow : (Workflow.followAt s plan pos t).dag = some dag :=
    (Workflow.dag_followAt_of_notMem hpos).trans hdag
  have htasks : t.tasks = dag.tasks := by simp [Template.tasks, hdag]
  rw [hsweep]
  simp [ofPlan, enterDag, countDag, Workflow.follow_append (.dag pos id) ht, Step.pos,
    Workflow.followAt_dag hpos, AugmentSettings.augmentDag, hfollow, Workflow.planReport, Workflow.stepHooks,
    Workflow.stepEvents, ht, htasks]

/-- If visits to what the tasks of a dag invoke carry their plans out, then so they do one after another. -/
theorem forM_ofPlan {index : Index} {ids : IdSource} {budget : Nat}
    (hvisit : ∀ {pos : Nat} {id : String} {plan plan' : Plan}, w.planFrom index s ids budget pos id plan = .ok plan' →
      visit index s ids budget pos id (ofPlan w s plan) = .ok () (ofPlan w s plan'))
    (children : List (Nat × String)) :
    ∀ {plan plan' : Plan},
      children.foldlM (fun plan child => w.planFrom index s ids budget child.1 child.2 plan) plan = .ok plan' →
      (children.forM fun child => visit index s ids budget child.1 child.2) (ofPlan w s plan) =
        .ok () (ofPlan w s plan') := by
  induction children with
  | nil =>
    intro plan plan' h
    cases h
    rfl
  | cons child children ih =>
    intro plan plan' h
    rw [List.foldlM_cons] at h
    obtain ⟨mid, hchild, hrest⟩ := Chain.bind_eq_ok_iff.mp h
    rw [forM_cons_of_ok (hvisit hchild)]
    exact ih hrest

/-- A visit whose plan goes through goes through as well, and carries the plan out. -/
theorem visit_ofPlan {index : Index} {ids : IdSource} (budget : Nat) :
    ∀ {pos : Nat} {id : String} {plan plan' : Plan}, w.planFrom index s ids budget pos id plan = .ok plan' →
      visit index s ids budget pos id (ofPlan w s plan) = .ok () (ofPlan w s plan') := by
  induction budget with
  | zero => intro pos id plan plan' h; cases h
  | succ budget ih =>
    intro pos id plan plan' h
    rcases Workflow.planFrom_eq_ok h with ⟨hnone, rfl⟩ | ⟨t, ht, hcases⟩
    · have hnone' : (ofPlan w s plan').workflow.templates[pos]? = none := by
        simp [ofPlan, Workflow.getElem?_follow, hnone]
      have hmeet : (ofPlan w s plan').meetContainer s pos = ofPlan w s plan' := by simp [meetContainer, hnone']
      rw [visit_of_none (by rw [hmeet]; exact hnone'), hmeet]
    · have hmeet : (ofPlan w s plan).meetContainer s pos = ofPlan w s (plan.meetContainer pos t) := meetContainer_ofPlan ht
      have hat : ((ofPlan w s plan).meetContainer s pos).workflow.templates[pos]? =
          some (Workflow.followAt s (plan.meetContainer pos t) pos t) := hmeet ▸ getElem?_ofPlan ht
      have hdags : ((ofPlan w s plan).meetContainer s pos).dags = plan.dags :=
        hmeet ▸ Plan.dags_meetContainer plan pos t
      rcases hcases with ⟨hdag, rfl⟩ | ⟨hdag, hpos, rfl⟩ | ⟨hdag, hpos, children, hres, hfold⟩
      · rw [visit_of_not_isDag hat (by rwa [Workflow.isDag_followAt]), hmeet]
      · rw [visit_of_mem hat (by rwa [Workflow.isDag_followAt]) (by rwa [hdags]), hmeet, meetAgain_ofPlan ht]
      · obtain ⟨dag, hsome⟩ := Option.isSome_iff_exists.mp hdag
        have htasks : t.tasks = dag.tasks := by simp [Template.tasks, hsome]
        have hnew : pos ∉ (plan.meetContainer pos t).dags := by rwa [Plan.dags_meetContainer]
        have hsweep := Sweep.across_eq (htasks ▸ hres)
        rw [visit_of_sweep hat ((Workflow.dag_followAt_of_notMem hnew).trans hsome) (by rwa [hdags]) (by rw [hsweep]),
          hmeet, enterDag_ofPlan ht hsome hnew hsweep]
        exact forM_ofPlan ih children hfold

end

end Walk

end WorkflowAugment

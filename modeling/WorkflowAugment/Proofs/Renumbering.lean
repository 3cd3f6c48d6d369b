import WorkflowAugment.Proofs.Depth
import WorkflowAugment.Proofs.Verdict

/-!
# Where templates stand does not matter

Two workflows that share what is reached are augmented alike, wherever the templates stand in them and whatever else there
is (`augment_congr_reached`). Positions at which the two have the same template that is reached are twins; twins
invoke twins, so both searches and both plans go from twins to twins and end alike, unless one of them spends its budget,
which neither does.
-/

namespace WorkflowAugment

/-! ## Runs that agree -/

/-- Two runs that end alike, their values being related, unless one of them spends its budget. -/
inductive Agree {α β : Type} (R : α → β → Prop) : Except Halt α → Except Halt β → Prop where
  | ok {a : α} {b : β} (h : R a b) : Agree R (.ok a) (.ok b)
  | error (e : AugmentError) : Agree R (.error (.error e)) (.error (.error e))
  | spentLeft (y : Except Halt β) : Agree R (.error .exhausted) y
  | spentRight (x : Except Halt α) : Agree R x (.error .exhausted)

namespace Agree

variable {α β γ δ : Type} {R : α → β → Prop} {S : γ → δ → Prop}

/-- Runs that agree and go on to agree do so altogether. -/
theorem bind {x : Except Halt α} {y : Except Halt β} {f : α → Except Halt γ} {g : β → Except Halt δ} (h : Agree R x y)
    (hfg : ∀ a b, R a b → Agree S (f a) (g b)) : Agree S (x >>= f) (y >>= g) := by
  cases h with
  | ok h => exact hfg _ _ h
  | error e => exact .error e
  | spentLeft y => exact .spentLeft _
  | spentRight x => exact .spentRight _

/-- Runs that agree still do so when their values are made into others that are related. -/
theorem map {x : Except Halt α} {y : Except Halt β} {f : α → γ} {g : β → δ} (h : Agree R x y)
    (hfg : ∀ a b, R a b → S (f a) (g b)) : Agree S (x.map f) (y.map g) := by
  cases h with
  | ok h => exact .ok (hfg _ _ h)
  | error e => exact .error e
  | spentLeft y => exact .spentLeft _
  | spentRight x => exact .spentRight _

/-- Runs over one list agree if they do at each of its elements. -/
theorem mapM {ε : Type} {f : ε → Except Halt α} {g : ε → Except Halt β} {xs : List ε}
    (h : ∀ x ∈ xs, Agree R (f x) (g x)) : Agree (List.Forall₂ R) (xs.mapM f) (xs.mapM g) := by
  induction xs with
  | nil => exact .ok .nil
  | cons x xs ih =>
    rw [List.mapM_cons, List.mapM_cons]
    refine (h x List.mem_cons_self).bind fun a b hab => ?_
    refine (ih fun y hy => h y (List.mem_cons_of_mem x hy)).bind fun as bs habs => ?_
    exact .ok (.cons hab habs)

/-- Chains of steps agree if steps over related elements do. -/
theorem foldlM {ε ζ : Type} {T : ε → ζ → Prop} {f : α → ε → Except Halt α} {g : β → ζ → Except Halt β} {xs : List ε}
    {ys : List ζ} (hxs : List.Forall₂ T xs ys)
    (hstep : ∀ x y, T x y → ∀ a b, R a b → Agree R (f a x) (g b y)) :
    ∀ {a : α} {b : β}, R a b → Agree R (xs.foldlM f a) (ys.foldlM g b) := by
  induction hxs with
  | nil =>
    intro a b hab
    exact .ok hab
  | cons hxy _ ih =>
    intro a b hab
    rw [List.foldlM_cons, List.foldlM_cons]
    exact (hstep _ _ hxy a b hab).bind fun _ _ hmid => ih hmid

/-- Runs that agree and do not spend their budgets go through with related values, or stop with one error. -/
theorem outcome {x : Except Halt α} {y : Except Halt β} (h : Agree R x y) (hx : x ≠ .error .exhausted)
    (hy : y ≠ .error .exhausted) :
    (∃ a b, x = .ok a ∧ y = .ok b ∧ R a b) ∨ ∃ e, x = .error (.error e) ∧ y = .error (.error e) := by
  cases h with
  | ok h => exact Or.inl ⟨_, _, rfl, rfl, h⟩
  | error e => exact Or.inr ⟨e, rfl, rfl⟩
  | spentLeft y => exact absurd rfl hx
  | spentRight x => exact absurd rfl hy

/-- Of two runs that go through and agree, the values are related. -/
theorem of_ok {a : α} {b : β} (h : Agree R (.ok a) (.ok b)) : R a b := by
  cases h with
  | ok h => exact h

end Agree

/-! ## Twins -/

namespace Workflow

/-- The templates that invocations lead to from the entrypoint. -/
def reachedTemplates (w : Workflow) : Set Template := {t | ∃ p, w.Reaches p ∧ w.templates[p]? = some t}

/-- At positions of two workflows there stands one template, and both reach it. -/
def Twins (w w' : Workflow) (p p' : Nat) : Prop :=
  w.Reaches p ∧ w'.Reaches p' ∧ ∃ t, w.templates[p]? = some t ∧ w'.templates[p']? = some t

variable {w w' : Workflow} {index index' : Index} {p p' q q' : Nat}

/-- What is invoked from a position that is reached is reached. -/
theorem Reaches.invokes (h : w.Reaches p) (hpq : w.Invokes p q) : w.Reaches q := by
  obtain ⟨start, t, ht, hname, hreach⟩ := h
  exact ⟨start, t, ht, hname, hreach.tail hpq⟩

/-- Twins are twins the other way round. -/
theorem Twins.symm (h : Twins w w' p p') : Twins w' w p' p := by
  obtain ⟨hp, hp', t, ht, ht'⟩ := h
  exact ⟨hp', hp, t, ht', ht⟩

/-- A position has one twin at most. -/
theorem Twins.rightUnique (hI' : w'.IndexedBy index') : Relator.RightUnique (Twins w w') := by
  rintro p p' q' ⟨-, -, t, ht, hp⟩ ⟨-, -, u, hu, hq⟩
  rw [ht] at hu
  cases hu
  exact hI'.eq_of_name hp hq rfl

/-- Being twins pairs the positions off. -/
theorem Twins.biUnique (hI : w.IndexedBy index) (hI' : w'.IndexedBy index') : Relator.BiUnique (Twins w w') := by
  refine ⟨?_, rightUnique hI'⟩
  intro p p' q hp hq
  exact rightUnique hI hp.symm hq.symm

/-- A position that is reached has a twin if its template is reached in the other workflow as well. -/
theorem exists_twin (hsame : w.reachedTemplates = w'.reachedTemplates) {t : Template} (hp : w.Reaches p)
    (ht : w.templates[p]? = some t) : ∃ p', Twins w w' p p' ∧ w'.templates[p']? = some t := by
  have hmem : t ∈ w'.reachedTemplates := hsame ▸ ⟨p, hp, ht⟩
  obtain ⟨p', hp', ht'⟩ := hmem
  exact ⟨p', ⟨hp, hp', t, ht, ht'⟩, ht'⟩

/-- What is invoked from one of two twins has a twin that the other one invokes by the same name. -/
theorem exists_twin_lookup (hI : w.IndexedBy index) (hI' : w'.IndexedBy index')
    (hsame : w.reachedTemplates = w'.reachedTemplates) {t : Template} (hp : w.Reaches p) (ht : w.templates[p]? = some t)
    {task : Task} (htask : task ∈ t.tasks) (hq : index.lookup task.template = some q) :
    ∃ q', index'.lookup task.template = some q' ∧ Twins w w' q q' := by
  have hreach : w.Reaches q := hp.invokes ((hI.invokes_iff ht).mpr ⟨task, htask, hq⟩)
  obtain ⟨u, hu, hname⟩ := (hI _ q).mp hq
  obtain ⟨q', htwins, hu'⟩ := exists_twin hsame hreach hu
  exact ⟨q', (hI' _ q').mpr ⟨u, hu', hname⟩, htwins⟩

/-- A task that both workflows reach resolves to twins, or to the same error. -/
theorem resolve_agree (hI : w.IndexedBy index) (hI' : w'.IndexedBy index')
    (hsame : w.reachedTemplates = w'.reachedTemplates) {t : Template} (hp : w.Reaches p) (hp' : w'.Reaches p')
    (ht : w.templates[p]? = some t) (ht' : w'.templates[p']? = some t) {task : Task} (htask : task ∈ t.tasks) :
    Agree (Twins w w') (index.resolve task) (index'.resolve task) := by
  unfold Index.resolve
  cases hq : index.lookup task.template with
  | some q =>
    obtain ⟨q', hq', htwins⟩ := exists_twin_lookup hI hI' hsame hp ht htask hq
    rw [hq']
    exact .ok htwins
  | none =>
    cases hq' : index'.lookup task.template with
    | none => exact .error _
    | some q' =>
      obtain ⟨q, hq₂, -⟩ := exists_twin_lookup hI' hI hsame.symm hp' ht' htask hq'
      rw [hq] at hq₂
      cases hq₂

/-- Both workflows start at twins, or neither has a template to start at. -/
theorem start_twins (hI : w.IndexedBy index) (hI' : w'.IndexedBy index') (hentry : w.entrypoint = w'.entrypoint)
    (hsame : w.reachedTemplates = w'.reachedTemplates) {start : Nat} (h : index.lookup w.entrypoint = some start) :
    ∃ start', index'.lookup w'.entrypoint = some start' ∧ Twins w w' start start' := by
  obtain ⟨u, hu, hname⟩ := (hI _ start).mp h
  have hreach : w.Reaches start := ⟨start, u, hu, hname, .refl⟩
  obtain ⟨start', htwins, hu'⟩ := exists_twin hsame hreach hu
  exact ⟨start', (hI' _ start').mpr ⟨u, hu', hname.trans hentry⟩, htwins⟩

/-! ## Two searches -/

/-- Marks at twins, met in the same order. -/
structure MarkedAlike (w w' : Workflow) (m m' : Marks) : Prop where
  onPath : List.Forall₂ (Twins w w') m.onPath m'.onPath
  seen : List.Forall₂ (Twins w w') m.seen m'.seen

/-- Twins are taken out of lists of twins alike. -/
theorem Twins.erase (hu : Relator.BiUnique (Twins w w')) (hp : Twins w w' p p') {l l' : List Nat}
    (h : List.Forall₂ (Twins w w') l l') : List.Forall₂ (Twins w w') (l.erase p) (l'.erase p') := by
  induction h with
  | nil => exact .nil
  | @cons a b l l' hab hl ih =>
    rw [List.erase_cons, List.erase_cons]
    by_cases hpa : a = p
    · have hpb : b = p' := (Relator.rel_eq hu hab hp).mp hpa
      simpa [hpa, hpb] using hl
    · have hpb : b ≠ p' := fun h => hpa ((Relator.rel_eq hu hab hp).mpr h)
      simpa [hpa, hpb] using List.Forall₂.cons hab ih

/-- Searches from twins with marks at twins agree. -/
theorem checkDag_agree (hI : w.IndexedBy index) (hI' : w'.IndexedBy index')
    (hsame : w.reachedTemplates = w'.reachedTemplates) (budget : Nat) :
    ∀ {budget' p p' : Nat} {m m' : Marks}, Twins w w' p p' → MarkedAlike w w' m m' →
      Agree (MarkedAlike w w') (w.checkDag index budget p m) (w'.checkDag index' budget' p' m') := by
  have hu : Relator.BiUnique (Twins w w') := Twins.biUnique hI hI'
  induction budget with
  | zero =>
    intro budget' p p' m m' _ _
    exact .spentLeft _
  | succ budget ih =>
    intro budget' p p' m m' htwins hm
    cases budget' with
    | zero => exact .spentRight _
    | succ budget' =>
      obtain ⟨hp, hp', t, ht, ht'⟩ := id htwins
      rw [checkDag, checkDag]
      simp only [ht, ht']
      cases hdag : t.dag with
      | none => exact .ok hm
      | some dag =>
        simp only [List.rel_mem hu htwins hm.onPath, List.rel_mem hu htwins hm.seen]
        split
        · exact .error _
        · split
          · exact .ok hm
          · have htasks : t.tasks = dag.tasks := by simp [Template.tasks, hdag]
            have hresolve : Agree (List.Forall₂ (Twins w w')) (dag.tasks.mapM index.resolve)
                (dag.tasks.mapM index'.resolve) :=
              Agree.mapM fun task htask => resolve_agree hI hI' hsame hp hp' ht ht' (htasks ▸ htask)
            have henter : MarkedAlike w w' ⟨p :: m.onPath, p :: m.seen⟩ ⟨p' :: m'.onPath, p' :: m'.seen⟩ :=
              ⟨.cons htwins hm.onPath, .cons htwins hm.seen⟩
            refine hresolve.bind fun children children' hchildren => ?_
            refine (Agree.foldlM hchildren (fun c c' hc m m' hm => ih hc hm) henter).bind fun last last' hlast => ?_
            exact .ok ⟨Twins.erase hu htwins hlast.onPath, hlast.seen⟩

/-- Behind an index that has the entrypoint, a workflow can be walked exactly if the search goes through. -/
theorem walkable_of_lookup {start : Nat} (hindex : w.index = .ok index) (hstart : index.lookup w.entrypoint = some start) :
    w.walkable = ((w.checkDag index w.depthBudget start ⟨[], []⟩).mapError (Halt.toError w.entrypoint)).map
      fun _ => (index, start) := by
  simp only [walkable, hindex, hstart, Except.mapError, Option.elim, bind, Except.bind, pure, Except.pure]
  cases w.checkDag index w.depthBudget start ⟨[], []⟩ <;> rfl

/-- Behind an index without the entrypoint, a workflow cannot be walked. -/
theorem walkable_of_lookup_none (hindex : w.index = .ok index) (hstart : index.lookup w.entrypoint = none) :
    w.walkable = .error (.unknownTemplate .entrypoint w.entrypoint) := by
  simp [walkable, hindex, hstart, Except.mapError, bind, Except.bind]

/-- A workflow whose templates have different names has an index. -/
theorem exists_index (hnames : w.names.Nodup) : ∃ index, w.index = .ok index ∧ w.IndexedBy index := by
  rcases w.index_cases with ⟨-, hindex⟩ | ⟨_, _, hrep, -⟩
  · exact hindex
  · exact absurd hnames hrep.not_nodup

/-- Both workflows can be walked, from twins, or neither can, for the same reason. -/
theorem walkable_agree (hentry : w.entrypoint = w'.entrypoint) (hnames : w.names.Nodup) (hnames' : w'.names.Nodup)
    (hsame : w.reachedTemplates = w'.reachedTemplates) :
    (∃ e, w.walkable = .error e ∧ w'.walkable = .error e) ∨
      ∃ index index' start start', w.walkable = .ok (index, start) ∧ w'.walkable = .ok (index', start') ∧
        Twins w w' start start' := by
  obtain ⟨index, hindex, hI⟩ := exists_index hnames
  obtain ⟨index', hindex', hI'⟩ := exists_index hnames'
  cases hstart : index.lookup w.entrypoint with
  | none =>
    left
    cases hstart' : index'.lookup w'.entrypoint with
    | none =>
      refine ⟨_, walkable_of_lookup_none hindex hstart, ?_⟩
      rw [walkable_of_lookup_none hindex' hstart', hentry]
    | some start' =>
      obtain ⟨start, hstart₂, -⟩ := start_twins hI' hI hentry.symm hsame.symm hstart'
      rw [hstart] at hstart₂
      cases hstart₂
  | some start =>
    obtain ⟨start', hstart', htwins⟩ := start_twins hI hI' hentry hsame hstart
    have hagree : Agree (MarkedAlike w w') (w.checkDag index w.depthBudget start ⟨[], []⟩)
        (w'.checkDag index' w'.depthBudget start' ⟨[], []⟩) :=
      checkDag_agree hI hI' hsame w.depthBudget htwins ⟨.nil, .nil⟩
    rw [walkable_of_lookup hindex hstart, walkable_of_lookup hindex' hstart']
    have hends := (checkDag_ends hI le_rfl start ⟨[], []⟩).1
    have hends' := (checkDag_ends hI' le_rfl start' ⟨[], []⟩).1
    rcases hagree.outcome hends hends' with
      ⟨m, m', hm, hm', -⟩ | ⟨e, he, he'⟩
    · right
      exact ⟨index, index', start, start', by rw [hm]; rfl, by rw [hm']; rfl, htwins⟩
    · left
      exact ⟨e, by rw [he]; rfl, by rw [he']; rfl⟩

/-! ## Two plans -/

/-- Steps of one kind at twins. -/
inductive StepsAlike (w w' : Workflow) : Step → Step → Prop where
  | container {p p' : Nat} (h : Twins w w' p p') : StepsAlike w w' (.container p) (.container p')
  | dag {p p' : Nat} (h : Twins w w' p p') (id : String) : StepsAlike w w' (.dag p id) (.dag p' id)
  | again {p p' : Nat} (h : Twins w w' p p') : StepsAlike w w' (.again p) (.again p')

/-- Plans that take the same steps, at twins. -/
abbrev PlansAlike (w w' : Workflow) : Plan → Plan → Prop := List.Forall₂ (StepsAlike w w')

variable {s : AugmentSettings} {ids : IdSource} {plan plan' : Plan} {t : Template}

/-- Plans that are alike meet twin containers in the same order. -/
theorem PlansAlike.containers (h : PlansAlike w w' plan plan') :
    List.Forall₂ (Twins w w') plan.containers plan'.containers := by
  refine List.rel_filterMap (R := StepsAlike w w') ?_ h
  intro step step' hstep
  cases hstep with
  | container h => exact .some h
  | dag h id => exact .none
  | again h => exact .none

/-- Plans that are alike meet twin dags in the same order. -/
theorem PlansAlike.dags (h : PlansAlike w w' plan plan') : List.Forall₂ (Twins w w') plan.dags plan'.dags := by
  refine List.rel_filterMap (R := StepsAlike w w') ?_ h
  intro step step' hstep
  cases hstep with
  | container h => exact .none
  | dag h id => exact .some h
  | again h => exact .none

/-- Plans that take the same steps enter twins with one identifier. -/
theorem PlansAlike.idAt? (hu : Relator.BiUnique (Twins w w')) (hp : Twins w w' p p') (h : PlansAlike w w' plan plan') :
    plan.idAt? p = plan'.idAt? p' := by
  unfold Plan.idAt?
  induction h with
  | nil => rfl
  | @cons step step' _ _ hstep _ ih =>
    have hhead : step.idAt? p = step'.idAt? p' := by
      cases hstep with
      | container h => rfl
      | dag h id => simp only [Step.idAt?, Relator.rel_eq hu h hp]
      | again h => rfl
    rw [List.findSome?_cons, List.findSome?_cons, hhead, ih]

/-- Plans that take the same steps do so too once a template has been met at twins. -/
theorem PlansAlike.meetContainer (hu : Relator.BiUnique (Twins w w')) (hp : Twins w w' p p')
    (h : PlansAlike w w' plan plan') (t : Template) :
    PlansAlike w w' (plan.meetContainer p t) (plan'.meetContainer p' t) := by
  have hmem : p ∈ plan.containers ↔ p' ∈ plan'.containers := List.rel_mem hu hp h.containers
  unfold Plan.meetContainer
  simp only [hmem]
  split
  · exact List.rel_append h (.cons (.container hp) .nil)
  · exact h

/-- Visits to twins with plans that take the same steps agree. -/
theorem planFrom_agree (hI : w.IndexedBy index) (hI' : w'.IndexedBy index')
    (hsame : w.reachedTemplates = w'.reachedTemplates) (s : AugmentSettings) (ids : IdSource) (budget : Nat) :
    ∀ {budget' p p' : Nat} (id : String) {plan plan' : Plan}, Twins w w' p p' → PlansAlike w w' plan plan' →
      Agree (PlansAlike w w') (w.planFrom index s ids budget p id plan)
        (w'.planFrom index' s ids budget' p' id plan') := by
  have hu : Relator.BiUnique (Twins w w') := Twins.biUnique hI hI'
  induction budget with
  | zero =>
    intro budget' p p' id plan plan' _ _
    exact .spentLeft _
  | succ budget ih =>
    intro budget' p p' parent plan plan' htwins hplan
    cases budget' with
    | zero => exact .spentRight _
    | succ budget' =>
      obtain ⟨hp, hp', t, ht, ht'⟩ := id htwins
      have hdags : p ∈ plan.dags ↔ p' ∈ plan'.dags := List.rel_mem hu htwins hplan.dags
      have hmeet : PlansAlike w w' (plan.meetContainer p t) (plan'.meetContainer p' t) := hplan.meetContainer hu htwins t
      rw [planFrom, planFrom]
      simp only [ht, ht', hdags]
      split
      · exact .ok hmeet
      · split
        · exact .ok (List.rel_append hmeet (.cons (.again htwins) .nil))
        · have henter : PlansAlike w w' (plan.meetContainer p t ++ [.dag p parent])
              (plan'.meetContainer p' t ++ [.dag p' parent]) :=
            List.rel_append hmeet (.cons (.dag htwins parent) .nil)
          refine Agree.bind (R := List.Forall₂ fun c c' => Twins w w' c.1 c'.1 ∧ c.2 = c'.2) ?_ ?_
          · refine Agree.mapM fun task htask => ?_
            exact (resolve_agree hI hI' hsame hp hp' ht ht' htask).map fun q q' hq => ⟨hq, rfl⟩
          · intro children children' hchildren
            refine Agree.foldlM hchildren (fun c c' hc plan plan' hplan => ?_) henter
            rw [hc.2]
            exact ih c'.2 hc.1 hplan

/-- Plans that take the same steps touch as much. -/
theorem planReport_eq (h : PlansAlike w w' plan plan') (s : AugmentSettings) :
    w.planReport s plan = w'.planReport s plan' := by
  have hhooks : plan.map (w.stepHooks s) = plan'.map (w'.stepHooks s) := by
    induction h with
    | nil => rfl
    | @cons step step' _ _ hstep _ ih =>
      have hhead : w.stepHooks s step = w'.stepHooks s step' := by
        cases hstep with
        | container h => rfl
        | dag h id =>
          obtain ⟨-, -, t, ht, ht'⟩ := h
          simp only [stepHooks, ht, ht']
        | again h => rfl
      rw [List.map_cons, List.map_cons, hhead, ih]
  rw [planReport, planReport, h.containers.length_eq, h.dags.length_eq, hhooks]

/-- Plans that take the same steps make the same of a template that stands at twins. -/
theorem followAt_eq (hu : Relator.BiUnique (Twins w w')) (hp : Twins w w' p p') (h : PlansAlike w w' plan plan')
    (s : AugmentSettings) (t : Template) : followAt s plan p t = followAt s plan' p' t := by
  have hmem : p ∈ plan.containers ↔ p' ∈ plan'.containers := List.rel_mem hu hp h.containers
  unfold followAt
  simp only [hmem, h.idAt? hu hp]

/-! ## Two augmentations -/

/-- An augmentation of a workflow that can be walked carries out the plan from where it starts. -/
theorem augment_of_walkable {start : Nat} (h : w.walkable = .ok (index, start)) (s : AugmentSettings) (ids : IdSource)
    (root : String) : ∃ plan, w.planFrom index s ids w.depthBudget start root [] = .ok plan ∧
      w.augment s ids root = ⟨w.follow s plan, .ok (w.planReport s plan), augmentSpan root w.entrypoint,
        plan.flatMap (w.stepEvents s) ++ [.finished (w.planReport s plan)]⟩ := by
  rcases w.augment_cases s ids root with ⟨e, herr, -⟩ | ⟨i, p, plan, hok, hplan, heq⟩
  · rw [h] at herr
    cases herr
  · rw [h] at hok
    cases hok
    exact ⟨plan, hplan, heq⟩

/-- Two workflows with the same entrypoint that reach the same templates are augmented alike, wherever these stand and
whatever else the workflows have: with the same report or the same error, and if they go through, every template that is
reached becomes the same in both. -/
theorem augment_congr_reached (hentry : w.entrypoint = w'.entrypoint) (hnames : w.names.Nodup)
    (hnames' : w'.names.Nodup) (hsame : w.reachedTemplates = w'.reachedTemplates) (s : AugmentSettings) (ids : IdSource)
    (root : String) :
    (w.augment s ids root).result = (w'.augment s ids root).result ∧
    ∀ r, (w.augment s ids root).result = .ok r →
      ∀ p p' t, w.Reaches p → w'.Reaches p' → w.templates[p]? = some t → w'.templates[p']? = some t →
        (w.augment s ids root).workflow.templates[p]? = (w'.augment s ids root).workflow.templates[p']? := by
  rcases walkable_agree hentry hnames hnames' hsame with
    ⟨e, herr, herr'⟩ | ⟨index, index', start, start', hwalk, hwalk', htwins⟩
  · rw [augment_of_error herr, augment_of_error herr']
    refine ⟨rfl, ?_⟩
    intro r hr
    cases hr
  · obtain ⟨hI, -, -⟩ := walkable_ok hwalk
    obtain ⟨hI', -, -⟩ := walkable_ok hwalk'
    obtain ⟨plan, hplan, heq⟩ := augment_of_walkable hwalk s ids root
    obtain ⟨plan', hplan', heq'⟩ := augment_of_walkable hwalk' s ids root
    have hagree : Agree (PlansAlike w w') (w.planFrom index s ids w.depthBudget start root [])
        (w'.planFrom index' s ids w'.depthBudget start' root []) :=
      planFrom_agree hI hI' hsame s ids w.depthBudget root htwins .nil
    rw [hplan, hplan'] at hagree
    have halike : PlansAlike w w' plan plan' := hagree.of_ok
    rw [heq, heq']
    refine ⟨by rw [planReport_eq halike], ?_⟩
    intro _ _ p p' t hp hp' ht ht'
    rw [getElem?_follow, getElem?_follow, ht, ht', Option.map_some, Option.map_some]
    exact congrArg some (followAt_eq (Twins.biUnique hI hI') ⟨hp, hp', t, ht, ht'⟩ halike s t)

/-- The example in another order, with one template more that is not reached. -/
def scattered : Workflow :=
  .ofTemplates "main"
    [.ofContainer "leaf" default, .ofContainer "spare" default,
      .ofDag "shared" (.ofTasks [.invoking "work" "leaf"]),
      .ofDag "main" (.ofTasks [.invoking "deep" "middle", .invoking "direct" "shared", .invoking "last" "leaf"]),
      .ofDag "middle" (.ofTasks [.invoking "inner" "shared"])]

/-- No task invokes the template that is spare. -/
theorem not_reaches_spare : ¬scattered.Reaches 1 := by
  have htasks : ∀ t ∈ scattered.templates, ∀ task ∈ t.tasks, task.template ≠ "spare" := by decide
  rintro ⟨start, t, ht, hname, hreach⟩
  rcases hreach.cases_tail with rfl | ⟨c, -, t', u, ht', hu, task, htask, hinvokes⟩
  · cases ht
    exact absurd hname (by decide)
  · cases hu
    exact htasks t' (List.mem_of_getElem? ht') task htask hinvokes

/-- Both examples reach the same four templates. -/
theorem reachedTemplates_scattered : sharing.reachedTemplates = scattered.reachedTemplates := by
  have main : sharing.Reaches 0 := ⟨0, _, rfl, rfl, .refl⟩
  have middle : sharing.Reaches 1 := main.invokes ⟨_, _, rfl, rfl, _, List.mem_of_getElem? (i := 0) rfl, rfl⟩
  have shared : sharing.Reaches 2 := main.invokes ⟨_, _, rfl, rfl, _, List.mem_of_getElem? (i := 1) rfl, rfl⟩
  have leaf : sharing.Reaches 3 := main.invokes ⟨_, _, rfl, rfl, _, List.mem_of_getElem? (i := 2) rfl, rfl⟩
  have main' : scattered.Reaches 3 := ⟨3, _, rfl, rfl, .refl⟩
  have middle' : scattered.Reaches 4 := main'.invokes ⟨_, _, rfl, rfl, _, List.mem_of_getElem? (i := 0) rfl, rfl⟩
  have shared' : scattered.Reaches 2 := main'.invokes ⟨_, _, rfl, rfl, _, List.mem_of_getElem? (i := 1) rfl, rfl⟩
  have leaf' : scattered.Reaches 0 := main'.invokes ⟨_, _, rfl, rfl, _, List.mem_of_getElem? (i := 2) rfl, rfl⟩
  ext t
  constructor
  · rintro ⟨p, -, ht⟩
    match p, ht with
    | 0, ht => exact ⟨3, main', ht⟩
    | 1, ht => exact ⟨4, middle', ht⟩
    | 2, ht => exact ⟨2, shared', ht⟩
    | 3, ht => exact ⟨0, leaf', ht⟩
    | p + 4, ht => cases ht
  · rintro ⟨p, hp, ht⟩
    match p, hp, ht with
    | 0, _, ht => exact ⟨3, leaf, ht⟩
    | 1, hp, _ => exact absurd hp not_reaches_spare
    | 2, _, ht => exact ⟨2, shared, ht⟩
    | 3, _, ht => exact ⟨0, main, ht⟩
    | 4, _, ht => exact ⟨1, middle, ht⟩
    | p + 5, _, ht => cases ht

/-- The examples are augmented alike, with the entrypoint in front in one of them and behind in the other. -/
theorem augment_congr_reached_scattered :
    (sharing.names.Nodup ∧ scattered.names.Nodup) ∧ sharing.reachedTemplates = scattered.reachedTemplates ∧
    (sharing.augment ⟨.disabled, ⟨"", ""⟩, some "notify"⟩ .path "root").result =
      (scattered.augment ⟨.disabled, ⟨"", ""⟩, some "notify"⟩ .path "root").result ∧
    (sharing.augment ⟨.disabled, ⟨"", ""⟩, some "notify"⟩ .path "root").workflow.templates[0]? =
      (scattered.augment ⟨.disabled, ⟨"", ""⟩, some "notify"⟩ .path "root").workflow.templates[3]? := by
  have hnames : sharing.names.Nodup := by decide
  have hnames' : scattered.names.Nodup := by decide
  have hok : (sharing.augment ⟨.disabled, ⟨"", ""⟩, some "notify"⟩ .path "root").result = .ok ⟨1, 3, 5⟩ := rfl
  have hentry : sharing.entrypoint = scattered.entrypoint := rfl
  obtain ⟨hresult, htemplates⟩ := augment_congr_reached hentry hnames hnames' reachedTemplates_scattered
    ⟨.disabled, ⟨"", ""⟩, some "notify"⟩ .path "root"
  refine ⟨⟨hnames, hnames'⟩, reachedTemplates_scattered, hresult, ?_⟩
  exact htemplates _ hok 0 3 _ ⟨0, _, rfl, rfl, .refl⟩ ⟨3, _, rfl, rfl, .refl⟩ rfl rfl

end Workflow

end WorkflowAugment

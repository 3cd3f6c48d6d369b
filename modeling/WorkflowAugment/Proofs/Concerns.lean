import WorkflowAugment.Proofs.Additions
import WorkflowAugment.Proofs.Outline

/-!
# What each setting decides

The exit template decides the hooks of the tasks and nothing else, the bundle decides what is added to containers and volumes
and nothing else, and whether TLS is used decides nothing here. Which templates an augmentation comes to, and whether it goes
through, is decided by the workflow alone. `augment_separation` says so of any two settings.
-/

namespace WorkflowAugment

/-! ## Settings that ask for the same -/

/-- Bundles that are added alike: the path and the secret are the same, or there is no secret in either. -/
def CaBundle.Alike (b b' : CaBundle) : Prop :=
  (b.path = b'.path ∧ b.secretName = b'.secretName) ∨ (b.secretName = "" ∧ b'.secretName = "")

namespace CaBundle

variable {b b' : CaBundle}

theorem Alike.refl (b : CaBundle) : b.Alike b := Or.inl ⟨rfl, rfl⟩

/-- Bundles that are alike are one bundle, or neither is configured. -/
theorem Alike.cases (h : b.Alike b') : b = b' ∨ (b.isConfigured = false ∧ b'.isConfigured = false) := by
  rcases h with ⟨hpath, hsecret⟩ | ⟨hnone, hnone'⟩
  · obtain ⟨path, secret⟩ := b
    cases hpath
    cases hsecret
    exact Or.inl rfl
  · exact Or.inr ⟨by simp [isConfigured, hnone], by simp [isConfigured, hnone']⟩

/-- Bundles that ask for the same append the same. -/
theorem Alike.additions_eq (h : b.Alike b') : b.additions = b'.additions := by
  rcases h.cases with rfl | ⟨hnone, hnone'⟩
  · rfl
  · simp [additions, hnone, hnone']

/-- Bundles that ask for the same say the same. -/
theorem Alike.events_eq (h : b.Alike b') : b.events = b'.events := by
  rcases h.cases with rfl | ⟨hnone, hnone'⟩
  · rfl
  · funext t
    simp [events, hnone, hnone']

end CaBundle

namespace AugmentSettings

variable {s s' : AugmentSettings}

/-- Settings with bundles that are alike add the same to every template. -/
theorem augmentTemplate_congr (hbundle : s.bundle.Alike s'.bundle) : s.augmentTemplate = s'.augmentTemplate := by
  funext t
  rw [augmentTemplate_eq_add, augmentTemplate_eq_add, additions, additions, hbundle.additions_eq]

/-- What is said of a template depends on the bundle only. -/
theorem templateEvents_congr_bundle (hbundle : s.bundle.Alike s'.bundle) : s.templateEvents = s'.templateEvents := by
  funext t
  rw [templateEvents, templateEvents, hbundle.events_eq]

/-- What is said of a task depends on the template for the exit only. -/
theorem taskEvents_congr (hexit : s.exitTemplate = s'.exitTemplate) : s.taskEvents = s'.taskEvents := by
  funext parent t
  rw [taskEvents, taskEvents, hexit]

/-- Whether tasks get a hook depends on the template for the exit only. -/
theorem attaches_congr (hexit : s.exitTemplate = s'.exitTemplate) : s.attaches = s'.attaches := by
  rw [attaches, attaches, hexit]

end AugmentSettings

namespace Workflow

variable {w : Workflow} {s s' : AugmentSettings} {plan plan' : Plan}

/-! ## What a plan makes of a template -/

/-- The dags that a plan leaves depend on the exit template alone. -/
theorem dag_followAt_congr (hexit : s.exitTemplate = s'.exitTemplate) (plan : Plan) (p : Nat) (t : Template) :
    (followAt s plan p t).dag = (followAt s' plan p t).dag := by
  cases hid : plan.idAt? p with
  | some id => rw [dag_followAt_of_idAt? hid, dag_followAt_of_idAt? hid, AugmentSettings.augmentTask_congr hexit]
  | none =>
    have hp : p ∉ plan.dags := Plan.idAt?_eq_none_iff.mp hid
    rw [dag_followAt_of_notMem hp, dag_followAt_of_notMem hp]

/-- The containers and volumes that a plan leaves depend on the bundle and on the containers of the plan alone. -/
theorem container_followAt_congr (hbundle : s.bundle.Alike s'.bundle) (hplan : plan.containers = plan'.containers)
    (p : Nat) (t : Template) :
    ((followAt s plan p t).container, (followAt s plan p t).volumes) =
      ((followAt s' plan' p t).container, (followAt s' plan' p t).volumes) := by
  by_cases hp : p ∈ plan.containers
  · have hp' : p ∈ plan'.containers := hplan ▸ hp
    rw [(container_followAt_of_mem hp).1, (container_followAt_of_mem hp).2, (container_followAt_of_mem hp').1,
      (container_followAt_of_mem hp').2, AugmentSettings.augmentTemplate_congr hbundle]
  · have hp' : p ∉ plan'.containers := hplan ▸ hp
    rw [(container_followAt_of_notMem hp).1, (container_followAt_of_notMem hp).2, (container_followAt_of_notMem hp').1,
      (container_followAt_of_notMem hp').2]

/-- What two plans leave agrees in some part of the templates if it does so at each position. -/
theorem map_follow_congr {β : Type} {f : Template → β}
    (h : ∀ p t, f (followAt s plan p t) = f (followAt s' plan' p t)) (w : Workflow) :
    (w.follow s plan).templates.map f = (w.follow s' plan').templates.map f := by
  rw [← List.forall₂_eq_eq_eq, List.forall₂_map_left_iff, List.forall₂_map_right_iff]
  exact forall₂_follow fun p t _ => h p t

/-! ## Two settings -/

/-- Settings with one exit template and bundles that are alike come to the same in everything. -/
theorem augment_congr (hexit : s.exitTemplate = s'.exitTemplate) (hbundle : s.bundle.Alike s'.bundle) (w : Workflow)
    (ids : IdSource) (root : String) : w.augment s ids root = w.augment s' ids root := by
  rcases w.augment_both s s' ids ids root root with
    ⟨e, heq, heq'⟩ | ⟨index, start, plan, plan', -, hplan, hplan', -, heq, heq'⟩
  · rw [heq, heq']
  · have hsame : plan = plan' := by
      rw [planFrom_congr hexit, hplan'] at hplan
      exact (Except.ok.inj hplan).symm
    subst hsame
    have hfollow : followAt s plan = followAt s' plan := by
      funext p t
      simp only [followAt, AugmentSettings.augmentDag, AugmentSettings.augmentTemplate_congr hbundle,
        AugmentSettings.augmentTask_congr hexit]
    have hhooks : w.stepHooks s = w.stepHooks s' := by
      funext step
      cases step <;> simp only [stepHooks, AugmentSettings.attaches_congr hexit]
    have hevents : w.stepEvents s = w.stepEvents s' := by
      funext step
      cases step <;> simp only [stepEvents, AugmentSettings.templateEvents_congr_bundle hbundle,
        AugmentSettings.taskEvents_congr hexit]
    rw [heq, heq']
    simp only [follow, planReport, hfollow, hhooks, hevents]

/-- What the settings decide about an augmentation, whatever the source of identifiers is. Whether it goes through, with
which error it fails, and how many containers and dags it comes to, they do not decide. The dags are the same if the exit
template is, and it is the same thing to have none and to have one without a name. The containers and the volumes are the
same if the bundle is, or if neither has a secret. With both nothing differs, whatever is said about TLS. -/
theorem augment_separation (w : Workflow) (ids : IdSource) (root : String) (s s' : AugmentSettings) :
    ((∃ r r', (w.augment s ids root).result = .ok r ∧ (w.augment s' ids root).result = .ok r' ∧
        r.containers = r'.containers ∧ r.dags = r'.dags) ∨
      ∃ e, (w.augment s ids root).result = .error e ∧ (w.augment s' ids root).result = .error e) ∧
    (s.exitTemplate = s'.exitTemplate →
      (w.augment s ids root).workflow.templates.map (·.dag) = (w.augment s' ids root).workflow.templates.map (·.dag)) ∧
    (s.bundle.Alike s'.bundle →
      (w.augment s ids root).workflow.templates.map (fun t => (t.container, t.volumes)) =
        (w.augment s' ids root).workflow.templates.map fun t => (t.container, t.volumes)) ∧
    (s.exitTemplate = s'.exitTemplate → s.bundle.Alike s'.bundle → w.augment s ids root = w.augment s' ids root) ∧
    (∀ tls, w.augment { s with tls := tls } ids root = w.augment s ids root) ∧
    w.augment { s with exit := none } ids root = w.augment { s with exit := some "" } ids root := by
  have htls : ∀ tls, w.augment { s with tls := tls } ids root = w.augment s ids root := by
    intro tls
    refine augment_congr ?_ ?_ w ids root
    · rfl
    · exact .refl s.bundle
  have hunnamed : w.augment { s with exit := none } ids root = w.augment { s with exit := some "" } ids root := by
    refine augment_congr ?_ ?_ w ids root
    · rfl
    · exact .refl s.bundle
  have hboth : s.exitTemplate = s'.exitTemplate → s.bundle.Alike s'.bundle →
      w.augment s ids root = w.augment s' ids root :=
    fun hexit hbundle => augment_congr hexit hbundle w ids root
  rcases w.augment_both s s' ids ids root root with
    ⟨e, heq, heq'⟩ | ⟨index, start, plan, plan', -, hplan, hplan', ⟨hcontainers, hdags⟩, heq, heq'⟩
  · refine ⟨Or.inr ⟨e, by rw [heq], by rw [heq']⟩, ?_, ?_, hboth, htls, hunnamed⟩
    · intro _
      rw [heq, heq']
    · intro _
      rw [heq, heq']
  · refine ⟨Or.inl ⟨_, _, by rw [heq], by rw [heq'], ?_, ?_⟩, ?_, ?_, hboth, htls, hunnamed⟩
    · rw [planReport, planReport, hcontainers]
    · rw [planReport, planReport, hdags]
    · intro hexit
      rw [planFrom_congr hexit, hplan'] at hplan
      cases hplan
      rw [heq, heq']
      exact map_follow_congr (dag_followAt_congr hexit plan) w
    · intro hbundle
      rw [heq, heq']
      exact map_follow_congr (container_followAt_congr hbundle hcontainers) w

end Workflow

end WorkflowAugment

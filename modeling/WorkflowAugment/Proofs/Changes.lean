import WorkflowAugment.Proofs.Verdict

/-!
# What an augmentation changes

Of the templates exactly those that are reached from the entrypoint are changed, and each of them once: the container gets
what `augmentTemplate` adds, however many tasks invoke it, and the tasks get their hooks. `augment_templates` says that this
is all that is changed.
-/

namespace WorkflowAugment

/-- What an augmentation makes of the template `t`, according to whether it is reached. -/
structure Template.Augmented (s : AugmentSettings) (reached : Prop) (t t' : Template) : Prop where
  name : t'.name = t.name
  extra : t'.extra = t.extra
  container : reached → t.container.isSome →
    t'.container = (s.augmentTemplate t).container ∧ t'.volumes = (s.augmentTemplate t).volumes
  bare : reached → t.container = none → t'.container = none ∧ t'.volumes = t.volumes
  dag : reached → ∃ id, t'.dag = t.dag.map fun d => { d with tasks := d.tasks.map (s.augmentTask id) }
  unreached : ¬reached → t' = t

namespace Workflow

variable {w : Workflow} {index : Index} {s : AugmentSettings} {plan : Plan} {start p : Nat} {t : Template}

/-- A plan from the beginning makes of every template what an augmentation should, if it covers where it starts. -/
theorem augmented_followAt (hgrown : Plan.Grown w start [] plan) (hstart : plan.Covers w start)
    (ht : w.templates[p]? = some t) :
    t.Augmented s (Relation.ReflTransGen w.Invokes start p) (followAt s plan p t) := by
  have hcontainers := hgrown.mem_containers_iff hstart ht
  have hdags := hgrown.mem_dags_iff hstart ht
  refine ⟨name_followAt, extra_followAt, ?_, ?_, ?_, ?_⟩
  · intro hreach hc
    exact container_followAt_of_mem (hcontainers.mpr ⟨hc, hreach⟩)
  · intro _ hnone
    have hnot : p ∉ plan.containers := by simp [hcontainers, hnone]
    rw [(container_followAt_of_notMem hnot).1, (container_followAt_of_notMem hnot).2]
    exact ⟨hnone, rfl⟩
  · intro hreach
    cases hid : plan.idAt? p with
    | some id => exact ⟨id, dag_followAt_of_idAt? hid⟩
    | none =>
      have hnot : p ∉ plan.dags := Plan.idAt?_eq_none_iff.mp hid
      have hnone : t.dag = none := by
        by_contra hne
        exact hnot (hdags.mpr ⟨Option.isSome_iff_ne_none.mpr hne, hreach⟩)
      exact ⟨"", by rw [dag_followAt_of_notMem hnot, hnone]; rfl⟩
  · intro hreach
    exact followAt_of_notMem (fun hp => hreach (hcontainers.mp hp).2) fun hp => hreach (hdags.mp hp).2

/-- What an augmentation that goes through leaves: a workflow with the same templates in the same order, in which those that
are reached are augmented once and all others are as they were. -/
theorem augment_templates {ids : IdSource} {root : String} {r : Report} (h : (w.augment s ids root).result = .ok r) :
    (w.augment s ids root).workflow.entrypoint = w.entrypoint ∧
    (w.augment s ids root).workflow.extra = w.extra ∧
    (w.augment s ids root).workflow.names = w.names ∧
    ∀ (p : Nat) (t : Template), w.templates[p]? = some t →
      ∃ t', (w.augment s ids root).workflow.templates[p]? = some t' ∧ t.Augmented s (w.Reaches p) t' := by
  obtain ⟨index, start, u, plan, hI, hu, hname, hplan, hafter⟩ := augment_ok h
  obtain ⟨hgrown, hcovers⟩ := planFrom_grown hI _ hplan
  rw [hafter]
  refine ⟨rfl, rfl, names_follow w s plan, ?_⟩
  intro p t ht
  refine ⟨followAt s plan p t, by rw [getElem?_follow, ht]; rfl, ?_⟩
  rw [hI.reaches_iff hu hname]
  exact augmented_followAt hgrown hcovers ht

/-- In the example the container gets what there is to add once, though two tasks invoke it. -/
theorem augment_templates_sharing :
    (sharing.augment ⟨.enabled, ⟨"/certs/ca.pem", "ca"⟩, none⟩ .path "root").result = .ok ⟨1, 3, 0⟩ ∧
    ∃ t', (sharing.augment ⟨.enabled, ⟨"/certs/ca.pem", "ca"⟩, none⟩ .path "root").workflow.templates[3]? = some t' ∧
      t'.container = (AugmentSettings.augmentTemplate ⟨.enabled, ⟨"/certs/ca.pem", "ca"⟩, none⟩
        (.ofContainer "leaf" default)).container := by
  have hok : (sharing.augment ⟨.enabled, ⟨"/certs/ca.pem", "ca"⟩, none⟩ .path "root").result = .ok ⟨1, 3, 0⟩ := rfl
  have hreach : sharing.Reaches 3 :=
    ⟨0, _, rfl, rfl, .single ⟨_, _, rfl, rfl, _, List.mem_of_getElem? (i := 2) rfl, rfl⟩⟩
  obtain ⟨-, -, -, htemplates⟩ := augment_templates hok
  obtain ⟨t', ht', haug⟩ := htemplates 3 (.ofContainer "leaf" default) rfl
  exact ⟨hok, t', ht', (haug.container hreach rfl).1⟩

end Workflow

end WorkflowAugment

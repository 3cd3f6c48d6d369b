import Mathlib.Logic.Function.Iterate
import WorkflowAugment.Proofs.Growth
import WorkflowAugment.Proofs.Mounts

/-!
# Augmenting again

What an augmentation leaves has the outline of what it was given, so another one of the same settings follows the same plan
(`augment_of_outline`). Over and over again, the dags are final after the first time, since the last hook that is written
stands, and behind what the containers had there is one copy of the additions for each time (`augment_repeatedly`). Nothing
looks for the copies that are there: from the second time on the mounts of the bundle are ambiguous.
-/

namespace WorkflowAugment

/-- The workflow once the same augmentation is done to it a number of times. -/
def Workflow.augmentTimes (w : Workflow) (s : AugmentSettings) (ids : IdSource) (root : String) (k : Nat) : Workflow :=
  (fun w => (w.augment s ids root).workflow)^[k] w

/-! ## Hooks that are written over -/

/-- Of two exit hooks that a task is given the last one stands. -/
theorem Task.addExitHook_addExitHook (t : Task) (exit parent parent' : String) :
    (t.addExitHook exit parent).addExitHook exit parent' = t.addExitHook exit parent' := by
  by_cases hexit : exit = ""
  · have hsame : t.addExitHook exit parent = t := if_pos hexit
    rw [hsame]
  · rw [addExitHook, addExitHook, addExitHook, if_neg hexit, if_neg hexit, if_neg hexit, Hooks.setExit, Hooks.setExit,
      Dict.insert_insert, Hooks.setExit]

/-- A dag that is entered twice as one invocation is as after the first time. -/
theorem AugmentSettings.augmentDag_augmentDag (s : AugmentSettings) (id : String) (t : Template) :
    s.augmentDag id (s.augmentDag id t) = s.augmentDag id t := by
  have htask : s.augmentTask id ∘ s.augmentTask id = s.augmentTask id := by
    funext task
    exact task.addExitHook_addExitHook s.exitTemplate id id
  obtain ⟨name, container, volumes, dag, extra⟩ := t
  cases dag <;> simp [augmentDag, htask]

/-! ## Mounts that name several volumes -/

namespace Template

variable {t : Template} {c : Container}

/-- A mount names all the copies of a volume. -/
theorem le_matchCount {m : VolumeMount} {v : Volume} {before : List Volume} {k : Nat}
    (hvolumes : t.volumes = before ++ List.replicate k v) (hname : v.name = m.name) : k ≤ t.matchCount m := by
  rw [matchCount, hvolumes, List.filter_append, List.filter_replicate_of_pos (by simpa using hname), List.length_append,
    List.length_replicate]
  exact Nat.le_add_left k _

/-- A container with several mounts of the bundle, and as many volumes for them, is not in order. -/
theorem checkMounts_of_times {s : AugmentSettings} {k : Nat} {before : List VolumeMount} {before' : List Volume}
    (hsecret : s.bundle.secretName ≠ "") (hk : 2 ≤ k) (hc : t.container = some c)
    (hmounts : c.volumeMounts = before ++ (s.additions.times k).volumeMounts)
    (hvolumes : t.volumes = before' ++ (s.additions.times k).volumes) : ∃ e, t.checkMounts = .error e := by
  have hset := CaBundle.isConfigured_iff.mpr hsecret
  rw [Additions.times, s.volumeMounts_additions, if_pos hset, List.flatten_replicate_singleton] at hmounts
  rw [Additions.times, s.volumes_additions, if_pos hset, List.flatten_replicate_singleton] at hvolumes
  have hm : (⟨bundleVolume, s.bundle.mountDirectory, .empty⟩ : VolumeMount) ∈ t.mounts := by
    rw [mounts_of_some hc, hmounts]
    exact List.mem_append_right _ (List.mem_replicate.mpr ⟨by omega, rfl⟩)
  have hcount : k ≤ t.matchCount ⟨bundleVolume, s.bundle.mountDirectory, .empty⟩ := le_matchCount hvolumes rfl
  cases hcheck : t.checkMounts with
  | error e => exact ⟨e, rfl⟩
  | ok _ =>
    have hone := checkMounts_eq_ok_iff.mp hcheck _ hm
    rw [← matchCount_eq] at hone
    omega

end Template

namespace Workflow

variable {w w' : Workflow} {index : Index} {s : AugmentSettings} {ids : IdSource} {plan : Plan} {start p : Nat}
  {root : String}

/-! ## The same plan again -/

/-- A workflow of the same outline is augmented by the same plan. -/
theorem augment_of_outline (hids : ids.ByName) (hwalk : w.walkable = .ok (index, start))
    (hplan : w.planFrom index s ids w.depthBudget start root [] = .ok plan) (houtline : w'.outline = w.outline) :
    (w'.augment s ids root).workflow = w'.follow s plan ∧
      (w'.augment s ids root).result = .ok (w.planReport s plan) := by
  have hwalk' : w'.walkable = .ok (index, start) := by
    rw [← walkable_outline, houtline, walkable_outline, hwalk]
  have hbudget : w'.depthBudget = w.depthBudget := by
    rw [← depthBudget_outline, houtline, depthBudget_outline]
  obtain ⟨plan', hplan', heq⟩ := augment_of_walkable hwalk' s ids root
  have hsame : plan' = plan := by
    rw [← planFrom_outline hids w' index s s, houtline, planFrom_outline hids w index s s, hbudget, hplan] at hplan'
    exact (Except.ok.inj hplan').symm
  have hreport : w'.planReport s plan = w.planReport s plan := by
    rw [← planReport_outline, houtline, planReport_outline]
  rw [heq, hsame, hreport]
  exact ⟨rfl, rfl⟩

/-- To augment once more is to augment what has come of it so far. -/
theorem augmentTimes_succ (w : Workflow) (s : AugmentSettings) (ids : IdSource) (root : String) (k : Nat) :
    w.augmentTimes s ids root (k + 1) = ((w.augmentTimes s ids root k).augment s ids root).workflow :=
  Function.iterate_succ_apply' _ k w

/-- However many times a workflow is augmented, it grows. -/
theorem growsTo_augmentTimes (w : Workflow) (s : AugmentSettings) (ids : IdSource) (root : String) (k : Nat) :
    w.GrowsTo (w.augmentTimes s ids root k) := by
  induction k with
  | zero => exact .refl w
  | succ k ih =>
    rw [augmentTimes_succ]
    exact ih.trans (growsTo_augment _ s ids root)

/-- At each position the same is done again and again. -/
theorem getElem?_augmentTimes (hids : ids.ByName) (hwalk : w.walkable = .ok (index, start))
    (hplan : w.planFrom index s ids w.depthBudget start root [] = .ok plan) (k p : Nat) :
    (w.augmentTimes s ids root k).templates[p]? = w.templates[p]?.map (followAt s plan p)^[k] := by
  induction k with
  | zero => exact (congrFun Option.map_id _).symm
  | succ k ih =>
    -- What has been done so far keeps the outline, so the plan is still that of the beginning.
    have houtline := (w.growsTo_augmentTimes s ids root k).outline_eq
    rw [augmentTimes_succ, (augment_of_outline hids hwalk hplan houtline).1, getElem?_follow, ih, Option.map_map,
      Function.iterate_succ']

/-! ## What becomes of a template -/

/-- After the first time the dag stays as it is. -/
theorem dag_iterate_followAt (s : AugmentSettings) (plan : Plan) (p k : Nat) :
    ∀ t, ((followAt s plan p)^[k + 1] t).dag = (followAt s plan p t).dag := by
  have htwice : ∀ t, (followAt s plan p (followAt s plan p t)).dag = (followAt s plan p t).dag := by
    intro t
    cases hid : plan.idAt? p with
    | none => exact dag_followAt_of_notMem (Plan.idAt?_eq_none_iff.mp hid)
    | some id =>
      rw [dag_followAt_of_idAt? hid, dag_followAt_of_idAt? hid]
      exact congrArg Template.dag (s.augmentDag_augmentDag id t)
  induction k with
  | zero => exact fun t => rfl
  | succ k ih =>
    -- The first time is split off at the front: the hypothesis is about the template that has its hooks.
    intro t
    rw [Function.iterate_succ_apply, ih, htwice]

/-- Each time the container and the volumes get one copy more of what there is to add. -/
theorem container_iterate_followAt {t : Template} {c : Container} (hp : p ∈ plan.containers) (hc : t.container = some c)
    (k : Nat) :
    ((followAt s plan p)^[k] t).container = some (c.add (s.additions.times k)) ∧
      ((followAt s plan p)^[k] t).volumes = t.volumes ++ (s.additions.times k).volumes := by
  induction k with
  | zero =>
    rw [Additions.times_zero, Container.add_empty, Additions.empty, List.append_nil]
    exact ⟨hc, rfl⟩
  | succ k ih =>
    obtain ⟨hcontainer, hvolumes⟩ := ih
    rw [Function.iterate_succ_apply', (container_followAt_of_mem hp).1, (container_followAt_of_mem hp).2,
      AugmentSettings.augmentTemplate_eq_add, Template.add_of_some hcontainer, Container.add_add, hvolumes,
      Additions.times_succ, Additions.volumes_append, List.append_assoc]
    exact ⟨rfl, rfl⟩

/-! ## Any number of times -/

/-- A workflow that can be augmented can be augmented over and over again, and each time as much of it is touched. The dags
are final after the first time. Every container that is reached has one copy of the additions for each time, behind what it
had, and so have the volumes of its template. With a secret, from the second time on the mounts are out of order. -/
theorem augment_repeatedly {r : Report} (hids : ids.ByName) (h : (w.augment s ids root).result = .ok r) {k : Nat}
    (hk : 1 ≤ k) :
    (∀ j, ((w.augmentTimes s ids root j).augment s ids root).result = .ok r) ∧
    (w.augmentTimes s ids root k).templates.map (·.dag) = (w.augment s ids root).workflow.templates.map (·.dag) ∧
    ∀ p t c, w.Reaches p → w.templates[p]? = some t → t.container = some c →
      ∃ t', (w.augmentTimes s ids root k).templates[p]? = some t' ∧
        t'.container = some { c with
          env := c.env ++ (List.replicate k s.additions.env).flatten
          envFrom := c.envFrom ++ (List.replicate k s.additions.envFrom).flatten
          volumeMounts := c.volumeMounts ++ (List.replicate k s.additions.volumeMounts).flatten } ∧
        t'.volumes = t.volumes ++ (List.replicate k s.additions.volumes).flatten ∧
        (s.bundle.secretName ≠ "" → 2 ≤ k → ∃ e, t'.checkMounts = .error e) := by
  rcases w.augment_cases s ids root with ⟨e, -, heq⟩ | ⟨index, start, plan, hwalk, hplan, heq⟩
  · rw [heq] at h
    cases h
  · obtain ⟨hI, -, u, hu, hname⟩ := walkable_ok hwalk
    obtain ⟨hgrown, hcovers⟩ := planFrom_grown hI _ hplan
    have hafter := getElem?_augmentTimes hids hwalk hplan
    rw [heq] at h ⊢
    refine ⟨fun j => ?_, ?_, ?_⟩
    · rw [← h]
      exact (augment_of_outline hids hwalk hplan (w.growsTo_augmentTimes s ids root j).outline_eq).2
    · apply List.ext_getElem?
      intro p
      obtain ⟨j, rfl⟩ := Nat.exists_eq_add_of_le' hk
      rw [List.getElem?_map, List.getElem?_map, hafter, getElem?_follow, Option.map_map, Option.map_map]
      exact Option.map_congr fun t _ => dag_iterate_followAt s plan p j t
    · intro p t c hreach ht hc
      have hp : p ∈ plan.containers :=
        (hgrown.mem_containers_iff hcovers ht).mpr ⟨by rw [hc]; rfl, (hI.reaches_iff hu hname).mp hreach⟩
      obtain ⟨hcontainer, hvolumes⟩ := container_iterate_followAt (s := s) hp hc k
      refine ⟨(followAt s plan p)^[k] t, by rw [hafter, ht]; rfl, hcontainer, hvolumes, ?_⟩
      exact fun hsecret htwo => Template.checkMounts_of_times hsecret htwo hcontainer rfl hvolumes

/-- In the example the container has three copies of the variables after three times, and mounts that are out of order. -/
theorem augment_repeatedly_sharing :
    IdSource.ByName .path ∧
    (sharing.augment ⟨.enabled, ⟨"/certs/ca.pem", "ca"⟩, some "notify"⟩ .path "root").result = .ok ⟨1, 3, 5⟩ ∧
    1 ≤ 3 ∧
    ∃ t' c',
      (sharing.augmentTimes ⟨.enabled, ⟨"/certs/ca.pem", "ca"⟩, some "notify"⟩ .path "root" 3).templates[3]? = some t' ∧
      t'.container = some c' ∧ c'.env.length = 18 ∧ ∃ e, t'.checkMounts = .error e := by
  have hok : (sharing.augment ⟨.enabled, ⟨"/certs/ca.pem", "ca"⟩, some "notify"⟩ .path "root").result =
      .ok ⟨1, 3, 5⟩ := rfl
  have hreach : sharing.Reaches 3 :=
    ⟨0, _, rfl, rfl, .single ⟨_, _, rfl, rfl, _, List.mem_of_getElem? (i := 2) rfl, rfl⟩⟩
  obtain ⟨-, -, htemplates⟩ := augment_repeatedly IdSource.byName.2.1 hok (k := 3) (by decide)
  obtain ⟨t', ht', hcontainer, -, hmounts⟩ := htemplates 3 (.ofContainer "leaf" default) default hreach rfl rfl
  exact ⟨IdSource.byName.2.1, hok, by decide, t', _, ht', hcontainer, rfl, hmounts (by decide) (by decide)⟩

end Workflow

end WorkflowAugment

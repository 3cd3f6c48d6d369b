import WorkflowAugment.Proofs.Additions
import WorkflowAugment.Proofs.Outline

/-!
# Growth

Whatever is done to a workflow, it grows: lists get longer at the end, volumes and mounts of the bundle come in pairs, exit
hooks come or are replaced, and all else stays (`Workflow.GrowsTo`). A workflow that grows keeps its outline, so it is walked
as before (`Workflow.GrowsTo.walkable_eq`). An augmentation lets a workflow grow (`growsTo_augment`).
-/

namespace WorkflowAugment

/-! ## Lists that change element by element -/

section Lists

variable {α : Type} {R : α → α → Prop}

/-- Lists that change twice, element by element, change once so. -/
theorem forall₂_trans (trans : ∀ a b c, R a b → R b c → R a c) {l m : List α} (h : List.Forall₂ R l m) :
    ∀ {n : List α}, List.Forall₂ R m n → List.Forall₂ R l n := by
  induction h with
  | nil => exact id
  | cons hab _ ih =>
    intro n h'
    cases h' with
    | cons hbc h' => exact .cons (trans _ _ _ hab hbc) (ih h')

/-- To change one element is to change all, the others by nothing. -/
theorem forall₂_modify (refl : ∀ a, R a a) {f : α → α} (hf : ∀ a, R a (f a)) (l : List α) :
    ∀ i : Nat, List.Forall₂ R l (l.modify i f) := by
  induction l with
  | nil => intro i; cases i <;> exact .nil
  | cons a l ih =>
    intro i
    cases i with
    | zero => exact .cons (hf a) (List.forall₂_same.mpr fun a _ => refl a)
    | succ i => exact .cons (refl a) (ih i)

/-- A change that may depend on the position is a change of each element. -/
theorem forall₂_mapIdx (l : List α) :
    ∀ {f : Nat → α → α}, (∀ i a, R a (f i a)) → List.Forall₂ R l (l.mapIdx f) := by
  induction l with
  | nil => intro f _; exact .nil
  | cons a l ih =>
    intro f hf
    rw [List.mapIdx_cons]
    exact .cons (hf 0 a) (ih fun i => hf (i + 1))

/-- What may be there changes twice as it changes once. -/
theorem rel_trans (trans : ∀ a b c, R a b → R b c → R a c) {x y z : Option α} (h : Option.Rel R x y)
    (h' : Option.Rel R y z) : Option.Rel R x z := by
  cases h with
  | none => exact h'
  | some hab =>
    cases h' with
    | some hbc => exact .some (trans _ _ _ hab hbc)

/-- Where related elements have one image, related lists have one. -/
theorem map_eq_of_forall₂ {β : Type} {f : α → β} (hf : ∀ {a b}, R a b → f b = f a) {l m : List α}
    (h : List.Forall₂ R l m) : m.map f = l.map f := by
  induction h with
  | nil => rfl
  | cons hab _ ih => rw [List.map_cons, List.map_cons, hf hab, ih]

end Lists

/-! ## Growth -/

/-- The task has another exit hook, or one for the first time, or stays as it is. -/
structure Task.GrowsTo (t t' : Task) : Prop where
  name : t'.name = t.name
  template : t'.template = t.template
  depends : t'.depends = t.depends
  arguments : t'.arguments = t.arguments
  extra : t'.extra = t.extra
  otherHooks : ∀ event, event ≠ "exit" → t'.hooks.get? event = t.hooks.get? event
  exitHook : (t.hooks.get? "exit").isSome → (t'.hooks.get? "exit").isSome

/-- The tasks of the dag grow, and there is nothing else to it. -/
structure Dag.GrowsTo (d d' : Dag) : Prop where
  extra : d'.extra = d.extra
  tasks : List.Forall₂ Task.GrowsTo d.tasks d'.tasks

/-- There are as many volumes as mounts, all of them for the bundle. -/
structure Additions.Balanced (a : Additions) : Prop where
  length_eq : a.volumes.length = a.volumeMounts.length
  volumes : ∀ v ∈ a.volumes, v.name = "ca-secret"
  volumeMounts : ∀ m ∈ a.volumeMounts, m.name = "ca-secret"

/-- Behind what the container and the volumes have there is more, in balance, and the tasks grow. Without a container there
is nothing more among the volumes. -/
structure Template.GrowsTo (t t' : Template) : Prop where
  name : t'.name = t.name
  extra : t'.extra = t.extra
  bare : t.container = none → t'.container = none ∧ t'.volumes = t.volumes
  container : ∀ c, t.container = some c →
    ∃ more : Additions, more.Balanced ∧
      t'.container = some { c with
        env := c.env ++ more.env
        envFrom := c.envFrom ++ more.envFrom
        volumeMounts := c.volumeMounts ++ more.volumeMounts } ∧
      t'.volumes = t.volumes ++ more.volumes
  dag : Option.Rel Dag.GrowsTo t.dag t'.dag

/-- The templates of the workflow grow, each at its place, and there is nothing else to it. -/
structure Workflow.GrowsTo (w w' : Workflow) : Prop where
  entrypoint : w'.entrypoint = w.entrypoint
  extra : w'.extra = w.extra
  templates : List.Forall₂ Template.GrowsTo w.templates w'.templates

namespace Task

variable {t t' t'' : Task}

theorem GrowsTo.refl (t : Task) : t.GrowsTo t := ⟨rfl, rfl, rfl, rfl, rfl, fun _ _ => rfl, id⟩

/-- A task that grows twice grows. -/
theorem GrowsTo.trans (h : t.GrowsTo t') (h' : t'.GrowsTo t'') : t.GrowsTo t'' where
  name := h'.name.trans h.name
  template := h'.template.trans h.template
  depends := h'.depends.trans h.depends
  arguments := h'.arguments.trans h.arguments
  extra := h'.extra.trans h.extra
  otherHooks event hevent := (h'.otherHooks event hevent).trans (h.otherHooks event hevent)
  exitHook := h'.exitHook ∘ h.exitHook

/-- A task that grows keeps its outline. -/
theorem GrowsTo.outline_eq (h : t.GrowsTo t') : t'.outline = t.outline := by
  rw [outline, outline, h.name, h.template]

/-- A task with a new exit hook, or left alone, has grown. -/
theorem growsTo_addExitHook (t : Task) (exit parent : String) : t.GrowsTo (t.addExitHook exit parent) := by
  unfold addExitHook
  split
  · exact .refl t
  · refine ⟨rfl, rfl, rfl, rfl, rfl, ?_, ?_⟩
    · intro event hevent
      rw [Hooks.setExit, exitEvent, Dict.get?_insert, if_neg (Ne.symm hevent)]
    · intro _
      rw [Hooks.setExit, exitEvent, Dict.get?_insert, if_pos rfl]
      rfl

end Task

namespace Dag

variable {d d' d'' : Dag}

theorem GrowsTo.refl (d : Dag) : d.GrowsTo d := ⟨rfl, List.forall₂_same.mpr fun t _ => .refl t⟩

/-- A dag that grows twice grows. -/
theorem GrowsTo.trans (h : d.GrowsTo d') (h' : d'.GrowsTo d'') : d.GrowsTo d'' :=
  ⟨h'.extra.trans h.extra, forall₂_trans (fun _ _ _ h h' => h.trans h') h.tasks h'.tasks⟩

end Dag

namespace Additions

variable {a b : Additions}

/-- Where nothing is appended, each mount has its volume. -/
theorem balanced_empty : Balanced .empty := ⟨rfl, by simp [empty], by simp [empty]⟩

/-- Two additions that are balanced are so together. -/
theorem Balanced.append (ha : a.Balanced) (hb : b.Balanced) : (a ++ b).Balanced := by
  refine ⟨?_, ?_, ?_⟩
  · simp [ha.length_eq, hb.length_eq]
  · exact List.forall_mem_append.mpr ⟨ha.volumes, hb.volumes⟩
  · exact List.forall_mem_append.mpr ⟨ha.volumeMounts, hb.volumeMounts⟩

theorem balanced_identity : Balanced identity := ⟨rfl, by simp [identity, empty], by simp [identity, empty]⟩

theorem balanced_metadata : Balanced metadata := ⟨rfl, by simp [metadata, empty], by simp [metadata, empty]⟩

/-- A bundle comes with one volume and one mount, or with none. -/
theorem balanced_bundle (b : CaBundle) : b.additions.Balanced := by
  unfold CaBundle.additions
  split
  · exact ⟨rfl, by simp [Volume.ofSecret, bundleVolume], by simp [bundleVolume]⟩
  · exact balanced_empty

/-- What the settings append is balanced. -/
theorem balanced_settings (s : AugmentSettings) : s.additions.Balanced :=
  ((balanced_bundle s.bundle).append balanced_identity).append balanced_metadata

end Additions

namespace Template

variable {t t' t'' : Template}

/-- What is added in balance lets a template grow. -/
theorem growsTo_add (t : Template) {a : Additions} (ha : a.Balanced) : t.GrowsTo (t.add a) := by
  have hdag : Option.Rel Dag.GrowsTo t.dag t.dag := by
    cases t.dag with
    | none => exact .none
    | some d => exact .some (.refl d)
  cases hc : t.container with
  | none =>
    rw [add_of_none hc]
    refine ⟨rfl, rfl, fun _ => ⟨hc, rfl⟩, ?_, hdag⟩
    intro c hsome
    rw [hc] at hsome
    cases hsome
  | some c =>
    rw [add_of_some hc]
    refine ⟨rfl, rfl, ?_, ?_, hdag⟩
    · intro hnone
      rw [hc] at hnone
      cases hnone
    · intro c' hsome
      rw [hc] at hsome
      cases hsome
      exact ⟨a, ha, rfl, rfl⟩

theorem GrowsTo.refl (t : Template) : t.GrowsTo t := by
  have h := growsTo_add t Additions.balanced_empty
  rwa [add_empty] at h

/-- A template that grows twice grows. -/
theorem GrowsTo.trans (h : t.GrowsTo t') (h' : t'.GrowsTo t'') : t.GrowsTo t'' where
  name := h'.name.trans h.name
  extra := h'.extra.trans h.extra
  bare hnone := by
    obtain ⟨hnone', hvolumes⟩ := h.bare hnone
    obtain ⟨hnone'', hvolumes'⟩ := h'.bare hnone'
    exact ⟨hnone'', hvolumes'.trans hvolumes⟩
  container c hc := by
    obtain ⟨more, hmore, hc', hvolumes⟩ := h.container c hc
    obtain ⟨more', hmore', hc'', hvolumes'⟩ := h'.container _ hc'
    refine ⟨more ++ more', hmore.append hmore', ?_, ?_⟩
    · simpa using hc''
    · rw [hvolumes', hvolumes, Additions.volumes_append, List.append_assoc]
  dag := rel_trans (fun _ _ _ h h' => h.trans h') h.dag h'.dag

/-- A template whose tasks grow has grown. -/
theorem growsTo_mapTasks (t : Template) {f : List Task → List Task} (hf : ∀ ts, List.Forall₂ Task.GrowsTo ts (f ts)) :
    t.GrowsTo { t with dag := t.dag.map fun d => { d with tasks := f d.tasks } } := by
  obtain ⟨hname, hextra, hbare, hcontainer, -⟩ := GrowsTo.refl t
  refine ⟨hname, hextra, hbare, hcontainer, ?_⟩
  cases t.dag with
  | none => exact .none
  | some d => exact .some ⟨rfl, hf d.tasks⟩

/-- What a walk looks at in a template does not change when it grows. -/
theorem GrowsTo.outline_eq (h : t.GrowsTo t') : t'.outline = t.outline := by
  have hcontainer : (t'.container.map fun _ => Container.ofImage "") = t.container.map fun _ => .ofImage "" := by
    cases hc : t.container with
    | none => rw [(h.bare hc).1]
    | some c =>
      obtain ⟨more, -, hc', -⟩ := h.container c hc
      rw [hc']
      rfl
  have hdag : (t'.dag.map fun d => Dag.ofTasks (d.tasks.map Task.outline)) =
      t.dag.map fun d => .ofTasks (d.tasks.map Task.outline) := by
    have hrel := h.dag
    revert hrel
    generalize t.dag = d, t'.dag = d'
    intro hrel
    cases hrel with
    | none => rfl
    | some hgrows => simp only [Option.map_some, map_eq_of_forall₂ (fun h => h.outline_eq) hgrows.tasks]
  rw [outline, outline, h.name, hcontainer, hdag]

end Template

namespace Workflow

variable {w w' w'' : Workflow}

theorem GrowsTo.refl (w : Workflow) : w.GrowsTo w := ⟨rfl, rfl, List.forall₂_same.mpr fun t _ => .refl t⟩

/-- A workflow that grows twice grows. -/
theorem GrowsTo.trans (h : w.GrowsTo w') (h' : w'.GrowsTo w'') : w.GrowsTo w'' :=
  ⟨h'.entrypoint.trans h.entrypoint, h'.extra.trans h.extra,
    forall₂_trans (fun _ _ _ h h' => h.trans h') h.templates h'.templates⟩

/-- What a walk looks at in a workflow does not change when it grows. -/
theorem GrowsTo.outline_eq (h : w.GrowsTo w') : w'.outline = w.outline := by
  rw [outline, outline, h.entrypoint, map_eq_of_forall₂ (fun h => h.outline_eq) h.templates]

/-- A workflow that has grown is walked, or refused, as before. -/
theorem GrowsTo.walkable_eq (h : w.GrowsTo w') : w'.walkable = w.walkable := by
  rw [← walkable_outline, h.outline_eq, walkable_outline]

/-! ### Carrying out a plan -/

/-- What a plan makes of a template is something the template has grown to. -/
theorem growsTo_followAt (s : AugmentSettings) (plan : Plan) (pos : Nat) (t : Template) :
    t.GrowsTo (followAt s plan pos t) := by
  have hcontainer : t.GrowsTo (if pos ∈ plan.containers then s.augmentTemplate t else t) := by
    split
    · rw [AugmentSettings.augmentTemplate_eq_add]
      exact Template.growsTo_add t (Additions.balanced_settings s)
    · exact .refl t
  rw [followAt]
  cases plan.idAt? pos with
  | none => exact hcontainer
  | some id =>
    refine hcontainer.trans (Template.growsTo_mapTasks _ fun ts => ?_)
    rw [List.forall₂_map_right_iff, List.forall₂_same]
    exact fun task _ => task.growsTo_addExitHook s.exitTemplate id

/-- A workflow over which a plan is carried out has grown. -/
theorem growsTo_follow (w : Workflow) (s : AugmentSettings) (plan : Plan) : w.GrowsTo (w.follow s plan) :=
  ⟨rfl, rfl, forall₂_mapIdx w.templates fun pos t => growsTo_followAt s plan pos t⟩

/-- An augmentation lets a workflow grow, or leaves it as it is. -/
theorem growsTo_augment (w : Workflow) (s : AugmentSettings) (ids : IdSource) (root : String) :
    w.GrowsTo (w.augment s ids root).workflow := by
  rcases w.augment_cases s ids root with ⟨e, -, heq⟩ | ⟨index, start, plan, -, -, heq⟩
  · rw [heq]
    exact .refl w
  · rw [heq]
    exact growsTo_follow w s plan

end Workflow

end WorkflowAugment

import WorkflowAugment.Proofs.Coverage

/-!
# The order in which tasks are met

`preorder` lists the tasks behind the entrypoint as one meets them who follows every task as far as it leads before taking
the next one, and who passes over the tasks of a dag that has been walked. A plan meets the tasks in this order
(`planFrom_meets`), so the identifier of a dag is the one that comes from the first task in the order that invokes it.
-/

namespace WorkflowAugment

/-- A task, and the position of the dag that it is a task of. -/
structure Call where
  caller : Nat
  task : Task

namespace Workflow

/-- The calls that the dag at a position makes, in the order of the document. -/
def callsAt (w : Workflow) (p : Nat) : List Call := (w.templates[p]?.elim [] Template.tasks).map (Call.mk p)

/-- The position of the dag of a name. -/
def dagNamed? (w : Workflow) (name : String) : Option Nat := w.templates.findIdx? fun t => t.name = name && t.isDag

/-- The dag that a name is found for is at the position of a dag. -/
theorem mem_dagPositions_of_dagNamed? {w : Workflow} {name : String} {d : Nat} (h : w.dagNamed? name = some d) :
    d ∈ w.dagPositions := by
  obtain ⟨hlt, hd, -⟩ := List.findIdx?_eq_some_iff_getElem.mp h
  rw [Bool.and_eq_true] at hd
  exact mem_dagPositions.mpr ⟨_, List.getElem?_eq_getElem hlt, hd.2⟩

/-- The calls of an agenda, each followed by those of the dag it leads to, unless that is one of `walked` or has been
followed before. -/
def preorderFrom (w : Workflow) (walked : List Nat) : List Call → List Call
  | [] => []
  | call :: agenda =>
    match _hnamed : w.dagNamed? call.task.template with
    | none => call :: preorderFrom w walked agenda
    | some d =>
      if _hwalked : d ∈ walked then call :: preorderFrom w walked agenda
      else call :: preorderFrom w (walked ++ [d]) (w.callsAt d ++ agenda)
termination_by agenda => (w.fresh walked, agenda.length)
decreasing_by
  · exact Prod.Lex.right _ (Nat.lt_succ_self _)
  · exact Prod.Lex.right _ (Nat.lt_succ_self _)
  · exact Prod.Lex.left _ _
      (fresh_lt_fresh (List.subset_append_left _ _) (mem_dagPositions_of_dagNamed? _hnamed) _hwalked (by simp))

/-- The calls behind the entrypoint, in depth-first order. -/
def preorder (w : Workflow) : List Call :=
  (w.templates.findIdx? (·.name = w.entrypoint)).elim [] fun start => w.preorderFrom [start] (w.callsAt start)

/-! ## One call of the agenda -/

variable {w : Workflow} {index : Index} {s : AugmentSettings} {ids : IdSource}

/-- Without calls nothing is walked. -/
@[simp] theorem preorderFrom_nil (w : Workflow) (walked : List Nat) : w.preorderFrom walked [] = [] := by
  rw [preorderFrom]

/-- A call that leads to no dag, or to one that has been walked, is followed no further. -/
theorem preorderFrom_cons_of_walked {walked : List Nat} {call : Call}
    (h : ∀ d, w.dagNamed? call.task.template = some d → d ∈ walked) (agenda : List Call) :
    w.preorderFrom walked (call :: agenda) = call :: w.preorderFrom walked agenda := by
  rw [preorderFrom]
  split
  · rfl
  · rename_i d hd
    rw [dif_pos (h d hd)]

/-- A call that leads to a new dag is followed there first. -/
theorem preorderFrom_cons_of_new {walked : List Nat} {call : Call} {d : Nat}
    (hd : w.dagNamed? call.task.template = some d) (hnew : d ∉ walked) (agenda : List Call) :
    w.preorderFrom walked (call :: agenda) = call :: w.preorderFrom (walked ++ [d]) (w.callsAt d ++ agenda) := by
  rw [preorderFrom]
  split
  · rename_i hnone
    rw [hd] at hnone
    cases hnone
  · rename_i d' hd'
    rw [hd] at hd'
    cases hd'
    rw [dif_neg hnew]

/-- The calls at a position are the tasks of the dag there. -/
theorem mem_callsAt {p : Nat} {call : Call} :
    call ∈ w.callsAt p ↔ call.caller = p ∧ ∃ t, w.templates[p]? = some t ∧ call.task ∈ t.tasks := by
  unfold callsAt
  rw [List.mem_map]
  constructor
  · rintro ⟨task, htask, rfl⟩
    cases ht : w.templates[p]? with
    | none => simp [ht] at htask
    | some t => exact ⟨rfl, t, rfl, by simpa [ht] using htask⟩
  · rintro ⟨rfl, t, ht, htask⟩
    exact ⟨call.task, by simpa [ht] using htask, rfl⟩

/-- Every call that is met is a task of the dag of its caller, if that is so for the agenda. -/
theorem mem_preorderFrom (walked : List Nat) (agenda : List Call)
    (h : ∀ call ∈ agenda, call ∈ w.callsAt call.caller) :
    ∀ call ∈ w.preorderFrom walked agenda, call ∈ w.callsAt call.caller := by
  fun_induction w.preorderFrom walked agenda with
  | case1 walked => simp
  | case2 walked call agenda hnone ih =>
    obtain ⟨hcall, hagenda⟩ := List.forall_mem_cons.mp h
    exact List.forall_mem_cons.mpr ⟨hcall, ih hagenda⟩
  | case3 walked call agenda d hd hwalked ih =>
    obtain ⟨hcall, hagenda⟩ := List.forall_mem_cons.mp h
    exact List.forall_mem_cons.mpr ⟨hcall, ih hagenda⟩
  | case4 walked call agenda d hd hnew ih =>
    obtain ⟨hcall, hagenda⟩ := List.forall_mem_cons.mp h
    refine List.forall_mem_cons.mpr ⟨hcall, ih ?_⟩
    intro c hc
    rcases List.mem_append.mp hc with hc | hc
    · rw [(mem_callsAt.mp hc).1]
      exact hc
    · exact hagenda c hc

/-- Every call behind the entrypoint is a task of the dag of its caller. -/
theorem mem_preorder {call : Call} (h : call ∈ w.preorder) :
    ∃ t, w.templates[call.caller]? = some t ∧ call.task ∈ t.tasks := by
  unfold preorder at h
  cases hstart : w.templates.findIdx? (·.name = w.entrypoint) with
  | none => simp [hstart] at h
  | some start =>
    rw [hstart] at h
    refine (mem_callsAt.mp (mem_preorderFrom [start] (w.callsAt start) ?_ call h)).2
    intro c hc
    rw [(mem_callsAt.mp hc).1]
    exact hc

/-- If the names differ, a position is the first one of a kind if its name is asked for. -/
theorem IndexedBy.findIdx?_eq_some_iff (hI : w.IndexedBy index) (P : Template → Bool) {name : String} {p : Nat} :
    w.templates.findIdx? (fun t => t.name = name && P t) = some p ↔
      ∃ t, w.templates[p]? = some t ∧ t.name = name ∧ P t := by
  rw [List.findIdx?_eq_some_iff_getElem]
  constructor
  · rintro ⟨hlt, hp, -⟩
    rw [Bool.and_eq_true, decide_eq_true_eq] at hp
    exact ⟨_, List.getElem?_eq_getElem hlt, hp⟩
  · rintro ⟨t, ht, hname, hP⟩
    obtain ⟨hlt, rfl⟩ := List.getElem?_eq_some_iff.mp ht
    refine ⟨hlt, by simp [hname, hP], ?_⟩
    intro j hj
    rw [Bool.and_eq_true, decide_eq_true_eq, not_and]
    intro hname' _
    have hsame : j = p := hI.eq_of_name (List.getElem?_eq_getElem (hj.trans hlt)) ht (hname'.trans hname.symm)
    omega

/-- If the names differ, the dag of a name is the one template that has the name and a dag. -/
theorem IndexedBy.dagNamed?_eq_some_iff (hI : w.IndexedBy index) {name : String} {d : Nat} :
    w.dagNamed? name = some d ↔ ∃ t, w.templates[d]? = some t ∧ t.name = name ∧ t.isDag :=
  hI.findIdx?_eq_some_iff Template.isDag

/-- What a task invokes is the dag of its name exactly if there is a dag. -/
theorem IndexedBy.dagNamed?_of_lookup (hI : w.IndexedBy index) {name : String} {q d : Nat}
    (hlookup : index.lookup name = some q) :
    w.dagNamed? name = some d ↔ d = q ∧ ∃ t, w.templates[q]? = some t ∧ t.isDag := by
  rw [hI.dagNamed?_eq_some_iff]
  constructor
  · rintro ⟨t, ht, hname, hdag⟩
    obtain ⟨u, hu, hname'⟩ := (hI name q).mp hlookup
    have hsame : d = q := hI.eq_of_name ht hu (hname.trans hname'.symm)
    subst hsame
    exact ⟨rfl, t, ht, hdag⟩
  · rintro ⟨rfl, t, ht, hdag⟩
    obtain ⟨u, hu, hname⟩ := (hI name d).mp hlookup
    rw [ht] at hu
    cases hu
    exact ⟨t, ht, hname, hdag⟩

end Workflow

/-! ## What a plan meets -/

/-- A plan grows from one to another by meeting calls in the order of an agenda, and every dag that is new in it is entered
as what the first call that leads to it stands for. -/
structure Plan.Meets (w : Workflow) (s : AugmentSettings) (ids : IdSource) (agenda : List Call) (plan plan' : Plan)
    (met : List Call) : Prop where
  isPrefix : plan <+: plan'
  order : ∀ rest, w.preorderFrom plan.dags (agenda ++ rest) = met ++ w.preorderFrom plan'.dags rest
  entered : ∀ call ∈ met, ∀ d, w.dagNamed? call.task.template = some d → d ∈ plan'.dags
  first : ∀ d t, w.templates[d]? = some t → t.isDag → d ∈ plan'.dags → d ∉ plan.dags → ∃ call parent,
    met.find? (·.task.template = t.name) = some call ∧ plan'.idAt? call.caller = some parent ∧
      plan'.idAt? d = some (ids parent (s.augmentTask parent call.task))

namespace Plan

variable {w : Workflow} {index : Index} {s : AugmentSettings} {ids : IdSource} {plan mid plan' : Plan}
  {agenda agenda' met met' : List Call}

/-- Without calls a plan stays as it is. -/
theorem Meets.nil (w : Workflow) (s : AugmentSettings) (ids : IdSource) (plan : Plan) :
    Meets w s ids [] plan plan [] :=
  ⟨List.prefix_refl plan, fun _ => rfl, by simp, fun _ _ _ _ h hnew => absurd h hnew⟩

/-- What is met one after another. A dag that is new only in the second part is met by no call of the first. -/
theorem Meets.append (hI : w.IndexedBy index) (h : Meets w s ids agenda plan mid met)
    (h' : Meets w s ids agenda' mid plan' met') : Meets w s ids (agenda ++ agenda') plan plan' (met ++ met') := by
  refine ⟨h.isPrefix.trans h'.isPrefix, ?_, ?_, ?_⟩
  · intro rest
    rw [List.append_assoc, h.order, h'.order, List.append_assoc]
  · intro call hcall d hd
    rcases List.mem_append.mp hcall with hcall | hcall
    · exact dags_subset h'.isPrefix (h.entered call hcall d hd)
    · exact h'.entered call hcall d hd
  · intro d t ht hdag hd hnew
    by_cases hmid : d ∈ mid.dags
    · obtain ⟨call, parent, hfind, hparent, hid⟩ := h.first d t ht hdag hmid hnew
      refine ⟨call, parent, ?_, idAt?_mono h'.isPrefix hparent, idAt?_mono h'.isPrefix hid⟩
      rw [List.find?_append, hfind, Option.some_or]
    · obtain ⟨call, parent, hfind, hrest⟩ := h'.first d t ht hdag hd hmid
      refine ⟨call, parent, ?_, hrest⟩
      have hnone : met.find? (·.task.template = t.name) = none := by
        rw [List.find?_eq_none]
        intro c hc
        rw [decide_eq_true_eq]
        intro hname
        exact hmid (h.entered c hc d (hI.dagNamed?_eq_some_iff.mpr ⟨t, ht, hname.symm, hdag⟩))
      rw [List.find?_append, hnone, Option.none_or, hfind]

/-- A call that leads to no new dag is met and that is all. -/
theorem Meets.of_walked {call : Call} (hmore : plan <+: plan') (hdags : plan'.dags = plan.dags)
    (h : ∀ d, w.dagNamed? call.task.template = some d → d ∈ plan.dags) : Meets w s ids [call] plan plan' [call] := by
  refine ⟨hmore, ?_, ?_, ?_⟩
  · intro rest
    rw [hdags]
    exact Workflow.preorderFrom_cons_of_walked h rest
  · intro c hc d hd
    rw [List.mem_singleton] at hc
    rw [hdags]
    exact h d (hc ▸ hd)
  · intro d t _ _ hd hnew
    exact absurd (hdags ▸ hd) hnew

/-- A call that leads to a new dag is met before what the dag itself calls, and the dag is entered as what the call stands
for. -/
theorem Meets.of_new {call : Call} {d : Nat} {parent : String} (hI : w.IndexedBy index)
    (hd : w.dagNamed? call.task.template = some d) (hnew : d ∉ plan.dags) (hmore : plan <+: mid)
    (hdags : mid.dags = plan.dags ++ [d]) (hparent : plan.idAt? call.caller = some parent)
    (hid : mid.idAt? d = some (ids parent (s.augmentTask parent call.task)))
    (h : Meets w s ids (w.callsAt d) mid plan' met) : Meets w s ids [call] plan plan' (call :: met) := by
  have hentered : d ∈ plan'.dags := dags_subset h.isPrefix (by simp [hdags])
  refine ⟨hmore.trans h.isPrefix, ?_, ?_, ?_⟩
  · intro rest
    rw [List.singleton_append, Workflow.preorderFrom_cons_of_new hd hnew, ← hdags, h.order, List.cons_append]
  · intro c hc e he
    rcases List.mem_cons.mp hc with rfl | hc
    · rw [hd] at he
      cases he
      exact hentered
    · exact h.entered c hc e he
  · intro e t ht hdag he hnew'
    by_cases hde : e = d
    · subst hde
      obtain ⟨u, hu, hname, -⟩ := hI.dagNamed?_eq_some_iff.mp hd
      rw [ht] at hu
      cases hu
      refine ⟨call, parent, ?_, idAt?_mono (hmore.trans h.isPrefix) hparent, idAt?_mono h.isPrefix hid⟩
      rw [List.find?_cons_of_pos (by simp [hname])]
    · obtain ⟨c, parent', hfind, hrest⟩ := h.first e t ht hdag he (by simp [hdags, hnew', hde])
      refine ⟨c, parent', ?_, hrest⟩
      rw [List.find?_cons_of_neg, hfind]
      rw [decide_eq_true_eq]
      intro hname
      have hsame : w.dagNamed? call.task.template = some e := hI.dagNamed?_eq_some_iff.mpr ⟨t, ht, hname.symm, hdag⟩
      rw [hd] at hsame
      cases hsame
      exact hde rfl

end Plan

namespace Workflow

variable {w : Workflow} {index : Index} {s : AugmentSettings} {ids : IdSource}

/-- The calls of a template are those of its tasks. -/
theorem callsAt_eq {p : Nat} {t : Template} (ht : w.templates[p]? = some t) : w.callsAt p = t.tasks.map (Call.mk p) := by
  rw [callsAt, ht]
  rfl

/-- If visits meet what their positions call, then the tasks of a dag, visited one after another, are met in order. -/
theorem foldlM_planFrom_meets (hI : w.IndexedBy index) {budget : Nat} {p : Nat} {id : String}
    (hvisit : ∀ {task : Task} {q : Nat} {plan plan' : Plan}, index.lookup task.template = some q →
      plan.idAt? p = some id →
      w.planFrom index s ids budget q (ids id (s.augmentTask id task)) plan = .ok plan' →
      ∃ met, Plan.Meets w s ids [⟨p, task⟩] plan plan' met) (ts : List Task) :
    ∀ {children : List (Nat × String)} {plan plan' : Plan},
      ts.mapM (fun task => (index.resolve task).map (·, ids id (s.augmentTask id task))) = .ok children →
      plan.idAt? p = some id →
      children.foldlM (fun plan child => w.planFrom index s ids budget child.1 child.2 plan) plan = .ok plan' →
      ∃ met, Plan.Meets w s ids (ts.map (Call.mk p)) plan plan' met := by
  induction ts with
  | nil =>
    intro children plan plan' hres _ hfold
    cases hres
    cases hfold
    exact ⟨[], .nil w s ids plan⟩
  | cons task ts ih =>
    intro children plan plan' hres hid hfold
    rw [List.mapM_cons] at hres
    obtain ⟨child, hchild, hres⟩ := Chain.bind_eq_ok_iff.mp hres
    obtain ⟨children, hrest, hpure⟩ := Chain.bind_eq_ok_iff.mp hres
    cases hpure
    obtain ⟨q, hq, rfl⟩ := Chain.map_eq_ok_iff.mp hchild
    rw [List.foldlM_cons] at hfold
    obtain ⟨mid, hmid, hfold⟩ := Chain.bind_eq_ok_iff.mp hfold
    obtain ⟨met, hmet⟩ := hvisit (Index.resolve_eq_ok_iff.mp hq) hid hmid
    obtain ⟨met', hmet'⟩ := ih hrest (Plan.idAt?_mono hmet.isPrefix hid) hfold
    exact ⟨met ++ met', hmet.append hI hmet'⟩

/-- A visit to what a task invokes meets the task, and then what is behind it. -/
theorem planFrom_meets (hI : w.IndexedBy index) (budget : Nat) :
    ∀ {p : Nat} {id : String} {task : Task} {q : Nat} {plan plan' : Plan}, index.lookup task.template = some q →
      plan.idAt? p = some id → w.planFrom index s ids budget q (ids id (s.augmentTask id task)) plan = .ok plan' →
      ∃ met, Plan.Meets w s ids [⟨p, task⟩] plan plan' met := by
  induction budget with
  | zero => intro p id task q plan plan' _ _ h; cases h
  | succ budget ih =>
    intro p id task q plan plan' hlookup hid h
    have hmore : plan <+: plan' := (planFrom_grown hI _ h).1.isPrefix
    rcases planFrom_eq_ok h with ⟨hnone, rfl⟩ | ⟨t, ht, ⟨hdag, rfl⟩ | ⟨-, hpos, rfl⟩ | ⟨hdag, hpos, children, hres, hfold⟩⟩
    · refine ⟨_, .of_walked hmore rfl fun d hd => ?_⟩
      obtain ⟨-, t, ht, -⟩ := (hI.dagNamed?_of_lookup hlookup).mp hd
      rw [hnone] at ht
      cases ht
    · refine ⟨_, .of_walked hmore (Plan.dags_meetContainer plan q t) fun d hd => ?_⟩
      obtain ⟨-, u, hu, hudag⟩ := (hI.dagNamed?_of_lookup hlookup).mp hd
      rw [ht] at hu
      cases hu
      exact absurd hudag hdag
    · refine ⟨_, .of_walked hmore (by simp) fun d hd => ?_⟩
      rw [((hI.dagNamed?_of_lookup hlookup).mp hd).1]
      exact hpos
    · have hd : w.dagNamed? task.template = some q := (hI.dagNamed?_of_lookup hlookup).mpr ⟨rfl, t, ht, hdag⟩
      have hentered := Plan.idAt?_enter t (ids id (s.augmentTask id task)) hpos
      obtain ⟨met, hmet⟩ := foldlM_planFrom_meets hI ih t.tasks hres hentered hfold
      rw [← callsAt_eq ht] at hmet
      refine ⟨_, .of_new hI hd hpos ?_ (by simp) hid hentered hmet⟩
      exact (Plan.grown_meetContainer plan ht).1.isPrefix.trans (List.prefix_append _ _)

/-- The plan that starts at the entrypoint enters its dag as the root, and every other dag as what the first call that leads
to it stands for. -/
theorem planFrom_first (hI : w.IndexedBy index) {budget start : Nat} {root : String} {plan : Plan} {u : Template}
    (hu : w.templates[start]? = some u) (hname : u.name = w.entrypoint)
    (h : w.planFrom index s ids budget start root [] = .ok plan) :
    (start ∈ plan.dags → plan.idAt? start = some root) ∧
      ∀ d t, w.templates[d]? = some t → t.isDag → d ∈ plan.dags → d ≠ start → ∃ call parent,
        w.preorder.find? (·.task.template = t.name) = some call ∧ plan.idAt? call.caller = some parent ∧
          plan.idAt? d = some (ids parent (s.augmentTask parent call.task)) := by
  cases budget with
  | zero => cases h
  | succ budget =>
    rcases planFrom_eq_ok h with ⟨hnone, rfl⟩ | ⟨t, ht, ⟨hdag, rfl⟩ | ⟨-, hpos, -⟩ | ⟨hdag, hpos, children, hres, hfold⟩⟩
    · rw [hnone] at hu
      cases hu
    · have hnone : ∀ p, p ∉ (Plan.meetContainer [] start t).dags := by simp
      exact ⟨fun hd => absurd hd (hnone start), fun d _ _ _ hd => absurd hd (hnone d)⟩
    · simp at hpos
    · have hentered := Plan.idAt?_enter t root hpos
      obtain ⟨met, hmet⟩ := foldlM_planFrom_meets hI (planFrom_meets hI budget) t.tasks hres hentered hfold
      have hpreorder : w.preorder = met := by
        have hstart : w.templates.findIdx? (·.name = w.entrypoint) = some start := by
          simpa using (hI.findIdx?_eq_some_iff fun _ => true).mpr ⟨u, hu, hname, rfl⟩
        have horder := hmet.order []
        simpa [preorder, hstart, callsAt_eq ht] using horder
      refine ⟨fun _ => Plan.idAt?_mono hmet.isPrefix hentered, ?_⟩
      intro d v hv hvdag hd hne
      rw [hpreorder]
      exact hmet.first d v hv hvdag hd (by simp [hne])

/-- The deeper of two calls to a dag is met first, as it is behind the earlier task. -/
example : sharing.preorder.map (fun call => (call.caller, call.task.name)) =
    [(0, "deep"), (1, "inner"), (2, "work"), (0, "direct"), (0, "last")] := by
  cbv

end Workflow

end WorkflowAugment

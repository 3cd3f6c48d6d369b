import WorkflowAugment.Proofs.Chain
import WorkflowAugment.Proofs.Invocation

/-!
# The search for faults

`checkDag` goes through exactly where nothing is wrong: from sound marks it comes back only from a finished position
(`checkDag_ok`), and the fault it stops at is one there is (`checkDag_error`). Dags that have been met and left are finished,
which is why they need not be searched again; dags on the path are the ones that a way may lead back to.
-/

namespace WorkflowAugment

/-- Every dag that has been met and is no longer on the path is finished. -/
def Marks.Sound (w : Workflow) (m : Marks) : Prop := ∀ p ∈ m.seen, p ∉ m.onPath → w.Finished p

/-- What a search leaves of the marks: the same path, nothing forgotten, and sound marks sound. -/
structure Marks.Kept (w : Workflow) (m m' : Marks) : Prop where
  onPath : m'.onPath = m.onPath
  seen : m.seen ⊆ m'.seen
  sound : m.Sound w → m'.Sound w

theorem Marks.Kept.refl (w : Workflow) (m : Marks) : m.Kept w m :=
  ⟨rfl, List.Subset.refl _, id⟩

/-- What is kept by two searches is kept by them together. -/
theorem Marks.Kept.trans {w : Workflow} {m m' m'' : Marks} (h : m.Kept w m') (h' : m'.Kept w m'') : m.Kept w m'' :=
  ⟨h'.onPath.trans h.onPath, List.Subset.trans h.seen h'.seen, h'.sound ∘ h.sound⟩

/-- What can be wrong at a position or behind it, the dags of `path` being on the way there: a task that asks for a template
that does not exist, or a dag that is on the way or invokes itself. -/
inductive Workflow.Fault (w : Workflow) (path : List Nat) (p : Nat) : AugmentError → Prop where
  | dangling {q : Nat} {t : Template} {task : Task} (hpq : Relation.ReflTransGen w.Invokes p q)
      (ht : w.templates[q]? = some t) (htask : task ∈ t.tasks) (hname : task.template ∉ w.names) :
      Fault w path p (.unknownTemplate (.task task.name) task.template)
  | cycle {q : Nat} {t : Template} (hpq : Relation.ReflTransGen w.Invokes p q) (ht : w.templates[q]? = some t)
      (hdag : t.isDag) (hq : q ∈ path ∨ Relation.TransGen w.Invokes q q) : Fault w path p (.dagCycle t.name)

namespace Workflow

variable {w : Workflow} {index : Index}

/-- What is wrong behind something that a dag invokes is wrong behind the dag, which need not be on the path any more. -/
theorem Fault.of_invokes {path : List Nat} {p c : Nat} {e : AugmentError} (hpc : w.Invokes p c)
    (h : w.Fault (p :: path) c e) : w.Fault path p e := by
  cases h with
  | dangling hcq ht htask hname => exact .dangling (.head hpc hcq) ht htask hname
  | cycle hcq ht hdag hq =>
    refine .cycle (.head hpc hcq) ht hdag ?_
    rcases hq with hq | hq
    · rcases List.mem_cons.mp hq with rfl | hq
      · exact Or.inr (Relation.TransGen.head' hpc hcq)
      · exact Or.inl hq
    · exact Or.inr hq

/-! ## One step of the search -/

/-- A search that goes through either finds no dag, or one that has been met and left, or goes through all that the dag
invokes. -/
theorem checkDag_eq_ok {budget pos : Nat} {m m' : Marks} (h : w.checkDag index (budget + 1) pos m = .ok m') :
    ((∀ t, w.templates[pos]? = some t → ¬t.isDag) ∧ m' = m) ∨
      (pos ∉ m.onPath ∧ pos ∈ m.seen ∧ m' = m) ∨
      ∃ t children last, w.templates[pos]? = some t ∧ t.isDag ∧ pos ∉ m.onPath ∧ pos ∉ m.seen ∧
        t.tasks.mapM index.resolve = .ok children ∧
        children.foldlM (fun m child => w.checkDag index budget child m) ⟨pos :: m.onPath, pos :: m.seen⟩ = .ok last ∧
        m' = { last with onPath := last.onPath.erase pos } := by
  rw [checkDag] at h
  split at h
  · rename_i hpos
    cases h
    exact Or.inl ⟨by simp [hpos], rfl⟩
  · rename_i t hpos
    split at h
    · rename_i hdag
      cases h
      refine Or.inl ⟨fun t' ht' => ?_, rfl⟩
      rw [hpos] at ht'
      cases ht'
      simp [Template.isDag, hdag]
    · rename_i dag hdag
      split at h
      · cases h
      · rename_i hpath
        split at h
        · rename_i hseen
          cases h
          exact Or.inr (Or.inl ⟨hpath, hseen, rfl⟩)
        · rename_i hseen
          obtain ⟨children, hchildren, h⟩ := Chain.bind_eq_ok_iff.mp h
          obtain ⟨last, hlast, h⟩ := Chain.bind_eq_ok_iff.mp h
          cases h
          exact Or.inr (Or.inr ⟨t, children, last, hpos, by simp [Template.isDag, hdag], hpath, hseen,
            by simpa [Template.tasks, hdag] using hchildren, hlast, rfl⟩)

/-- A search that stops has met a dag on the path, or a task that does not resolve, or has stopped behind something that the
dag invokes. -/
theorem checkDag_eq_error {budget pos : Nat} {m : Marks} {h : Halt}
    (herr : w.checkDag index (budget + 1) pos m = .error h) :
    ∃ t, w.templates[pos]? = some t ∧ t.isDag ∧
      ((pos ∈ m.onPath ∧ h = .error (.dagCycle t.name)) ∨
        pos ∉ m.seen ∧ (t.tasks.mapM index.resolve = .error h ∨
          ∃ children, t.tasks.mapM index.resolve = .ok children ∧
            children.foldlM (fun m child => w.checkDag index budget child m) ⟨pos :: m.onPath, pos :: m.seen⟩ =
              .error h)) := by
  rw [checkDag] at herr
  split at herr
  · cases herr
  · rename_i t hpos
    split at herr
    · cases herr
    · rename_i dag hdag
      refine ⟨t, hpos, by simp [Template.isDag, hdag], ?_⟩
      have htasks : t.tasks = dag.tasks := by simp [Template.tasks, hdag]
      split at herr
      · rename_i hpath
        cases herr
        exact Or.inl ⟨hpath, rfl⟩
      · split at herr
        · cases herr
        · rename_i hseen
          rw [htasks]
          refine Or.inr ⟨hseen, ?_⟩
          rcases Chain.bind_eq_error_iff.mp herr with hres | ⟨children, hres, herr⟩
          · exact Or.inl hres
          · rcases Chain.bind_eq_error_iff.mp herr with hfold | ⟨_, _, hpure⟩
            · exact Or.inr ⟨children, hres, hfold⟩
            · cases hpure

/-! ## The tasks of a dag -/

/-- If the tasks of a dag resolve, they invoke templates that exist, and what they resolve to is what the dag invokes. -/
theorem IndexedBy.of_mapM_resolve (hI : w.IndexedBy index) {p : Nat} {t : Template} (ht : w.templates[p]? = some t)
    {children : List Nat} (h : t.tasks.mapM index.resolve = .ok children) :
    (∀ task ∈ t.tasks, task.template ∈ w.names) ∧ ∀ q, q ∈ children ↔ w.Invokes p q := by
  refine ⟨?_, ?_⟩
  · intro task htask
    obtain ⟨q, hq⟩ := Chain.exists_of_mapM_eq_ok h task htask
    by_contra hname
    rw [Index.resolve_eq_ok_iff, hI.lookup_eq_none_iff.mpr hname] at hq
    cases hq
  · intro q
    rw [hI.invokes_iff ht, Chain.mem_of_mapM_eq_ok h]
    simp only [Index.resolve_eq_ok_iff]

/-- If the tasks of a dag do not resolve, one of them asks for a template that does not exist. -/
theorem IndexedBy.fault_of_mapM_resolve (hI : w.IndexedBy index) {p : Nat} {t : Template}
    (ht : w.templates[p]? = some t) {path : List Nat} {h : Halt} (herr : t.tasks.mapM index.resolve = .error h) :
    ∃ e, h = .error e ∧ w.Fault path p e := by
  obtain ⟨task, htask, hres⟩ := Chain.exists_of_mapM_eq_error herr
  obtain ⟨hnone, rfl⟩ := Index.resolve_eq_error_iff.mp hres
  exact ⟨_, rfl, .dangling .refl ht htask (hI.lookup_eq_none_iff.mp hnone)⟩

/-! ## The whole search -/

/-- A search that goes through keeps the marks sound and comes back from a finished position. -/
theorem checkDag_ok (hI : w.IndexedBy index) (budget : Nat) :
    ∀ {pos : Nat} {m m' : Marks}, w.checkDag index budget pos m = .ok m' →
      m.Kept w m' ∧ (m.Sound w → w.Finished pos) := by
  induction budget with
  | zero => intro pos m m' h; cases h
  | succ budget ih =>
    intro pos m m' h
    rcases checkDag_eq_ok h with ⟨hnone, rfl⟩ | ⟨hpath, hseen, rfl⟩ |
      ⟨t, children, last, ht, _, hpath, _, hres, hlast, rfl⟩
    · exact ⟨.refl w _, fun _ => finished_of_not_isDag hnone⟩
    · exact ⟨.refl w _, fun hsound => hsound pos hseen hpath⟩
    · obtain ⟨hnames, hinvokes⟩ := hI.of_mapM_resolve ht hres
      -- A child is searched with the marks its elder siblings leave, which are as sound as the first ones.
      obtain ⟨hkept, hfin⟩ := Chain.foldlM_ok (Q := fun m child _ => m.Sound w → w.Finished child) (Marks.Kept.refl w)
        Marks.Kept.trans (fun hk hQ _ hs => hQ (hk.sound hs)) (fun _ _ _ _ hc => ih hc) hlast
      have henter : m.Sound w → Marks.Sound w ⟨pos :: m.onPath, pos :: m.seen⟩ := by
        intro hsound p hp hnp
        rw [List.mem_cons, not_or] at hnp
        rcases List.mem_cons.mp hp with rfl | hp
        · exact absurd rfl hnp.1
        · exact hsound p hp hnp.2
      have hpos : m.Sound w → w.Finished pos := by
        intro hsound
        apply finished_of_invokes
        · intro t' ht'
          rw [ht] at ht'
          cases ht'
          exact hnames
        · intro q hq
          exact hfin q ((hinvokes q).mpr hq) (henter hsound)
      have honPath : last.onPath.erase pos = m.onPath := by
        rw [hkept.onPath, List.erase_cons_head]
      refine ⟨⟨honPath, fun x hx => hkept.seen (List.mem_cons_of_mem pos hx), ?_⟩, hpos⟩
      intro hsound p hp hnp
      by_cases hpp : p = pos
      · exact hpp ▸ hpos hsound
      · refine hkept.sound (henter hsound) p hp ?_
        rw [hkept.onPath, List.mem_cons, not_or]
        exact ⟨hpp, honPath ▸ hnp⟩

/-- A search that stops does so at a fault behind its position, unless its budget is no more than the number of dags that
it has not met. -/
theorem checkDag_error (hI : w.IndexedBy index) (budget : Nat) :
    ∀ {pos : Nat} {m : Marks} {h : Halt}, w.checkDag index budget pos m = .error h →
      (∃ e, h = .error e ∧ w.Fault m.onPath pos e) ∨ budget ≤ w.fresh m.seen := by
  induction budget with
  | zero => intro pos m h _; exact Or.inr (Nat.zero_le _)
  | succ budget ih =>
    intro pos m h herr
    obtain ⟨t, ht, hdag, hcases⟩ := checkDag_eq_error herr
    rcases hcases with ⟨hpath, rfl⟩ | ⟨hseen, hres | ⟨children, hres, hfold⟩⟩
    · exact Or.inl ⟨_, rfl, .cycle .refl ht hdag (Or.inl hpath)⟩
    · exact Or.inl (hI.fault_of_mapM_resolve ht hres)
    · obtain ⟨before, child, after, mid, rfl, hbefore, hchild⟩ := Chain.exists_of_foldlM_eq_error hfold
      obtain ⟨hkept, -⟩ := Chain.foldlM_ok (Q := fun _ _ _ => True) (Marks.Kept.refl w) Marks.Kept.trans
        (fun _ _ _ => trivial) (fun _ _ _ _ hc => ⟨(checkDag_ok hI budget hc).1, trivial⟩) hbefore
      have hinvokes : w.Invokes pos child := ((hI.of_mapM_resolve ht hres).2 child).mp (by simp)
      rcases ih hchild with ⟨e, rfl, hfault⟩ | hbudget
      · rw [hkept.onPath] at hfault
        exact Or.inl ⟨e, rfl, hfault.of_invokes hinvokes⟩
      · have hless : w.fresh (pos :: m.seen) < w.fresh m.seen :=
          fresh_lt_fresh (fun x hx => List.mem_cons_of_mem pos hx) (mem_dagPositions.mpr ⟨t, ht, hdag⟩) hseen
            List.mem_cons_self
        have hmid : w.fresh mid.seen ≤ w.fresh (pos :: m.seen) := fresh_le_fresh hkept.seen
        omega

end Workflow

end WorkflowAugment

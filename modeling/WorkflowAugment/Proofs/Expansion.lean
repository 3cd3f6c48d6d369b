import WorkflowAugment.Proofs.Depth
import WorkflowAugment.Proofs.Finding

/-!
# What the recursions expand

`checkDagNoting` and `visitNoting` are the two recursions with one thing more: they note the position of every dag whose
tasks they are about to go through. Without the notes they are `checkDag` and `visit` (`outcome_checkDagNoting`,
`forget_visitNoting`), and no dag is noted twice, wherever they end (`checkDagNoting_once`, `visitNoting_once`).
`recursions_end` puts this together with how deep they go.
-/

namespace WorkflowAugment

open Stateful

namespace Workflow

/-- Positions of dags, none of which is given twice. -/
structure OnceEach (w : Workflow) (noted : List Nat) : Prop where
  nodup : noted.Nodup
  dags : noted ⊆ w.dagPositions

variable {w w' : Workflow} {index : Index} {noted : List Nat} {pos : Nat}

theorem onceEach_nil (w : Workflow) : w.OnceEach [] := ⟨List.nodup_nil, List.nil_subset _⟩

/-- There are no more of them than there are dags. -/
theorem OnceEach.length_le (h : w.OnceEach noted) : noted.length ≤ w.dagCount :=
  (h.nodup.length_le_of_subset h.dags).trans_eq List.length_findIdxs

/-- A dag that is new can be noted. -/
theorem OnceEach.note (h : w.OnceEach noted) (hpos : pos ∈ w.dagPositions) (hnew : pos ∉ noted) :
    w.OnceEach (noted ++ [pos]) := by
  refine ⟨?_, List.append_subset.mpr ⟨h.dags, List.cons_subset.mpr ⟨hpos, List.nil_subset _⟩⟩⟩
  rw [← List.concat_eq_append]
  exact h.nodup.concat hnew

/-- What is noted of a workflow may be noted of one with the same dags. -/
theorem OnceEach.congr (h : w.OnceEach noted) (hdags : w'.dagPositions = w.dagPositions) : w'.OnceEach noted :=
  ⟨h.nodup, hdags ▸ h.dags⟩

/-! ## The search -/

/-- The search of `checkDag`, with a note of every dag whose tasks are resolved. -/
def checkDagNoting (w : Workflow) (index : Index) : Nat → Nat → Marks → EStateM Halt (List Nat) Marks
  | 0, _, _ => throw .exhausted
  | budget + 1, pos, marks =>
    match w.templates[pos]? with
    | none => return marks
    | some t =>
      match t.dag with
      | none => return marks
      | some dag =>
        if pos ∈ marks.onPath then throw (.error (.dagCycle t.name))
        else if pos ∈ marks.seen then return marks
        else do
          modify (· ++ [pos])
          let children ← ofExcept (dag.tasks.mapM index.resolve)
          let marks ← children.foldlM (fun marks child => w.checkDagNoting index budget child marks)
            ⟨pos :: marks.onPath, pos :: marks.seen⟩
          return { marks with onPath := marks.onPath.erase pos }

/-- What one level of the search does, as a function of the notes before it. -/
theorem checkDagNoting_succ (w : Workflow) (index : Index) (budget pos : Nat) (m : Marks) (noted : List Nat) :
    w.checkDagNoting index (budget + 1) pos m noted =
      match w.templates[pos]? with
      | none => .ok m noted
      | some t =>
        match t.dag with
        | none => .ok m noted
        | some dag =>
          if pos ∈ m.onPath then .error (.error (.dagCycle t.name)) noted
          else if pos ∈ m.seen then .ok m noted
          else
            match dag.tasks.mapM index.resolve with
            | .error h => .error h (noted ++ [pos])
            | .ok children =>
              match children.foldlM (fun m child => w.checkDagNoting index budget child m)
                ⟨pos :: m.onPath, pos :: m.seen⟩ (noted ++ [pos]) with
              | .ok last noted => .ok { last with onPath := last.onPath.erase pos } noted
              | .error h noted => .error h noted := by
  cases ht : w.templates[pos]? with
  | none => simp only [checkDagNoting, ht]; rfl
  | some t =>
    cases hdag : t.dag with
    | none => simp only [checkDagNoting, ht, hdag]; rfl
    | some dag =>
      simp only [checkDagNoting, ht, hdag]
      split
      · rfl
      · split
        · rfl
        · have hmodify : ∀ noted, (modify (· ++ [pos]) : EStateM Halt (List Nat) Unit) noted = .ok () (noted ++ [pos]) :=
            fun _ => rfl
          cases dag.tasks.mapM index.resolve with
          | error h => rfl
          | ok children =>
            simp only [bind, EStateM.bind, hmodify, ofExcept, pure, EStateM.pure]
            cases children.foldlM (fun m child => w.checkDagNoting index budget child m)
              ⟨pos :: m.onPath, pos :: m.seen⟩ (noted ++ [pos]) <;> rfl

/-- The notes make no difference to the search. -/
theorem outcome_checkDagNoting (w : Workflow) (index : Index) (budget : Nat) :
    ∀ (pos : Nat) (m : Marks) (noted : List Nat),
      outcome (w.checkDagNoting index budget pos m noted) = w.checkDag index budget pos m := by
  induction budget with
  | zero => intro pos m noted; rfl
  | succ budget ih =>
    intro pos m noted
    rw [checkDagNoting_succ, checkDag]
    cases w.templates[pos]? with
    | none => rfl
    | some t =>
      simp only
      cases t.dag with
      | none => rfl
      | some dag =>
        simp only
        split
        · rfl
        · split
          · rfl
          · cases dag.tasks.mapM index.resolve with
            | error h => rfl
            | ok children =>
              have hfold := outcome_foldlM (fun child m noted => ih child m noted) children
                ⟨pos :: m.onPath, pos :: m.seen⟩ (noted ++ [pos])
              simp only [bind, Except.bind, ← hfold]
              cases children.foldlM (fun m child => w.checkDagNoting index budget child m)
                ⟨pos :: m.onPath, pos :: m.seen⟩ (noted ++ [pos]) <;> rfl

/-- The dags that a search has noted are the dags that it has met, the last one in front, and every one is noted once. -/
theorem checkDagNoting_once (w : Workflow) (index : Index) (budget : Nat) :
    ∀ (pos : Nat) (m : Marks) (noted : List Nat), m.seen = noted.reverse ∧ w.OnceEach noted →
      Ends (fun m noted => m.seen = noted.reverse ∧ w.OnceEach noted) w.OnceEach
        (w.checkDagNoting index budget pos m noted) := by
  induction budget with
  | zero => intro pos m noted h; exact h.2
  | succ budget ih =>
    intro pos m noted h
    rw [checkDagNoting_succ]
    cases ht : w.templates[pos]? with
    | none => exact h
    | some t =>
      simp only
      cases hdag : t.dag with
      | none => exact h
      | some dag =>
        simp only
        split
        · exact h.2
        · split
          · exact h
          · rename_i hnew
            have hpos : pos ∈ w.dagPositions := mem_dagPositions_of_dag ht hdag
            have henter : pos :: m.seen = (noted ++ [pos]).reverse ∧ w.OnceEach (noted ++ [pos]) := by
              refine ⟨by simp [h.1], h.2.note hpos ?_⟩
              rwa [h.1, List.mem_reverse] at hnew
            cases dag.tasks.mapM index.resolve with
            | error e => exact henter.2
            | ok children =>
              have hfold := ends_foldlM (fun child m noted => ih child m noted) children
                ⟨pos :: m.onPath, pos :: m.seen⟩ (noted ++ [pos]) henter
              simp only
              -- On the way back the path gets shorter; what has been met and what has been noted stays.
              revert hfold
              cases children.foldlM (fun m child => w.checkDagNoting index budget child m)
                ⟨pos :: m.onPath, pos :: m.seen⟩ (noted ++ [pos]) <;> exact fun h => h

end Workflow

/-! ## The walk -/

namespace Walk

/-- A note of a position beside the walk. -/
def note (pos : Nat) : EStateM Halt (Walk × List Nat) Unit := modify fun (walk, noted) => (walk, noted ++ [pos])

/-- The visit of `visit`, with a note of every dag that is entered. -/
def visitNoting (index : Index) (s : AugmentSettings) (ids : IdSource) :
    Nat → Nat → String → EStateM Halt (Walk × List Nat) Unit
  | 0, _, _ => throw .exhausted
  | budget + 1, pos, id => do
    beside (modify (meetContainer s pos))
    let walk ← beside get
    match walk.workflow.templates[pos]? with
    | none => return
    | some t =>
      match t.dag with
      | none => return
      | some dag =>
        if pos ∈ walk.dags then beside (set (walk.meetAgain t))
        else do
          note pos
          let sweep := Sweep.across index s ids id dag.tasks
          beside (set (walk.enterDag pos id t dag sweep))
          match sweep.children with
          | .error h => throw h
          | .ok children => do
            beside (modify countDag)
            children.forM fun child => visitNoting index s ids budget child.1 child.2

variable {index : Index} {s : AugmentSettings} {ids : IdSource}

/-- What one visit does, as a function of the walk and the notes before it. -/
theorem visitNoting_succ (index : Index) (s : AugmentSettings) (ids : IdSource) (budget pos : Nat) (id : String)
    (walk : Walk) (noted : List Nat) :
    visitNoting index s ids (budget + 1) pos id (walk, noted) =
      let met := walk.meetContainer s pos
      match met.workflow.templates[pos]? with
      | none => .ok () (met, noted)
      | some t =>
        match t.dag with
        | none => .ok () (met, noted)
        | some dag =>
          if pos ∈ met.dags then .ok () (met.meetAgain t, noted)
          else
            let sweep := Sweep.across index s ids id dag.tasks
            let entered := met.enterDag pos id t dag sweep
            match sweep.children with
            | .error h => .error h (entered, noted ++ [pos])
            | .ok children =>
              (children.forM fun child => visitNoting index s ids budget child.1 child.2)
                (entered.countDag, noted ++ [pos]) := by
  have hget : ∀ st : Walk × List Nat, (beside get : EStateM Halt (Walk × List Nat) Walk) st = .ok st.1 st := fun _ => rfl
  have hmodify : ∀ (f : Walk → Walk) (st : Walk × List Nat),
      (beside (modify f) : EStateM Halt (Walk × List Nat) Unit) st = .ok () (f st.1, st.2) := fun _ _ => rfl
  have hset : ∀ (walk : Walk) (st : Walk × List Nat),
      (beside (set walk) : EStateM Halt (Walk × List Nat) Unit) st = .ok () (walk, st.2) := fun _ _ => rfl
  have hnote : ∀ st : Walk × List Nat, note pos st = .ok () (st.1, st.2 ++ [pos]) := fun _ => rfl
  simp only [visitNoting, bind, EStateM.bind, hget, hmodify]
  cases ht : (walk.meetContainer s pos).workflow.templates[pos]? with
  | none => rfl
  | some t =>
    cases hdag : t.dag with
    | none => simp only [hdag]; rfl
    | some dag =>
      simp only [hdag]
      split
      · rfl
      · simp only [EStateM.bind, hset, hnote]
        cases (Sweep.across index s ids id dag.tasks).children <;> rfl

/-- The notes make no difference to the walk. -/
theorem forget_visitNoting (index : Index) (s : AugmentSettings) (ids : IdSource) (budget : Nat) :
    ∀ (pos : Nat) (id : String) (st : Walk × List Nat),
      forget (visitNoting index s ids budget pos id st) = visit index s ids budget pos id st.1 := by
  induction budget with
  | zero => intro pos id st; rfl
  | succ budget ih =>
    intro pos id ⟨walk, noted⟩
    simp only [visitNoting_succ, visit_succ]
    cases (walk.meetContainer s pos).workflow.templates[pos]? with
    | none => rfl
    | some t =>
      cases hdag : t.dag with
      | none => simp only [hdag, forget_ok]
      | some dag =>
        simp only [hdag]
        split
        · rfl
        · cases (Sweep.across index s ids id dag.tasks).children with
          | error h => rfl
          | ok children => exact forget_forM (fun child st => ih child.1 child.2 st) children _

/-- The dags that a walk has noted are the dags that it has entered, and every one is noted once. -/
def Noted (st : Walk × List Nat) : Prop := st.1.dags = st.2 ∧ st.1.workflow.OnceEach st.2

/-- A walk that goes on and enters no dag keeps its notes. -/
theorem Noted.onward {walk walk' : Walk} {noted : List Nat} (h : Noted (walk, noted)) (honward : walk.Onward walk')
    (hdags : walk'.dags = walk.dags) : Noted (walk', noted) :=
  ⟨hdags.trans h.1, h.2.congr honward.dagPositions⟩

/-- To meet a container is to enter no dag. -/
@[simp] theorem dags_meetContainer (s : AugmentSettings) (pos : Nat) (walk : Walk) :
    (walk.meetContainer s pos).dags = walk.dags := by
  unfold meetContainer
  split
  · rfl
  · split <;> rfl

/-- A visit notes the dags that it enters and no others, also where it fails. -/
theorem visitNoting_once (index : Index) (s : AugmentSettings) (ids : IdSource) (budget : Nat) :
    ∀ (child : Nat × String) (st : Walk × List Nat),
      Noted st → Noted (final (visitNoting index s ids budget child.1 child.2 st)) := by
  induction budget with
  | zero => intro child st h; exact h
  | succ budget ih =>
    intro ⟨pos, id⟩ ⟨walk, noted⟩ h
    have hmet : Noted (walk.meetContainer s pos, noted) :=
      h.onward (onward_meetContainer s pos walk) (dags_meetContainer s pos walk)
    simp only [visitNoting_succ]
    cases ht : (walk.meetContainer s pos).workflow.templates[pos]? with
    | none => exact hmet
    | some t =>
      cases hdag : t.dag with
      | none => simpa only [hdag, final_ok] using hmet
      | some dag =>
        simp only [hdag]
        split
        · exact hmet
        · rename_i hnew
          have hpos : pos ∈ (walk.meetContainer s pos).workflow.dagPositions :=
            Workflow.mem_dagPositions_of_dag ht hdag
          have henter : Noted ((walk.meetContainer s pos).enterDag pos id t dag (Sweep.across index s ids id dag.tasks),
              noted ++ [pos]) := by
            refine ⟨congrArg (· ++ [pos]) hmet.1, ?_⟩
            exact (hmet.2.note hpos (hmet.1 ▸ hnew)).congr (onward_enterDag ht hdag id _).dagPositions
          cases (Sweep.across index s ids id dag.tasks).children with
          | error e => exact henter
          | ok children =>
            exact final_forM (R := fun st st' => Noted st → Noted st') (fun _ h => h) (fun h h' hst => h' (h hst))
              (fun child _ st => ih child st) _ henter

end Walk

/-! ## Both recursions -/

namespace Workflow

variable {w : Workflow}

/-- Both recursions end, whatever the dags invoke, and no deeper than there are dags. From any position, a search that has
met nothing does not run out of a budget of one level more than there are dags and comes to the same with any larger one. It
goes through the tasks of a dag at most once: the dags that it does this for are no more than there are, and the ones that
it has met when it comes back. The same is so of a walk that is about to begin, whatever the search came to. -/
theorem recursions_end (hnames : w.names.Nodup) (pos : Nat) :
    ∃ index, w.index = .ok index ∧
    (∀ budget, w.dagCount + 1 ≤ budget →
      w.checkDag index budget pos ⟨[], []⟩ ≠ .error .exhausted ∧
      w.checkDag index budget pos ⟨[], []⟩ = w.checkDag index (w.dagCount + 1) pos ⟨[], []⟩) ∧
    (∀ budget, let run := w.checkDagNoting index budget pos ⟨[], []⟩ []
      outcome run = w.checkDag index budget pos ⟨[], []⟩ ∧
      w.OnceEach (final run) ∧ (final run).length ≤ w.dagCount ∧
      ∀ m noted, run = .ok m noted → m.seen = noted.reverse) ∧
    ∀ (s : AugmentSettings) (ids : IdSource) (id : String),
      (∀ budget, w.dagCount + 1 ≤ budget →
        outcome (Walk.visit index s ids budget pos id (.ofWorkflow w)) ≠ .error .exhausted ∧
        Walk.visit index s ids budget pos id (.ofWorkflow w) =
          Walk.visit index s ids (w.dagCount + 1) pos id (.ofWorkflow w)) ∧
      ∀ budget, let run := Walk.visitNoting index s ids budget pos id (.ofWorkflow w, [])
        forget run = Walk.visit index s ids budget pos id (.ofWorkflow w) ∧
        w.OnceEach (final run).2 ∧ (final run).2.length ≤ w.dagCount ∧ (final run).1.dags = (final run).2 := by
  obtain ⟨index, hindex⟩ := exists_index_iff.mpr hnames
  have hI : w.IndexedBy index := (index_ok hindex).2
  refine ⟨index, hindex, ?_, ?_, fun s ids id => ⟨?_, ?_⟩⟩
  · exact fun budget hbudget => checkDag_ends hI hbudget pos _
  · intro budget
    have hends := w.checkDagNoting_once index budget pos ⟨[], []⟩ [] ⟨rfl, w.onceEach_nil⟩
    have honce : w.OnceEach (final (w.checkDagNoting index budget pos ⟨[], []⟩ [])) :=
      hends.final (fun _ _ h => h.2) fun _ h => h
    refine ⟨w.outcome_checkDagNoting index budget pos ⟨[], []⟩ [], honce, honce.length_le, fun m noted hrun => ?_⟩
    rw [hrun] at hends
    exact hends.1
  · exact fun budget hbudget => Walk.visit_ends hbudget pos id
  · intro budget
    have hforget := Walk.forget_visitNoting index s ids budget pos id (.ofWorkflow w, [])
    obtain ⟨hnoted, hends⟩ := Walk.visitNoting_once index s ids budget (pos, id) (.ofWorkflow w, []) ⟨rfl, w.onceEach_nil⟩
    -- The walk has changed the workflow by then, but not where its dags are.
    have honward := Walk.visit_onward index s ids budget (pos, id) (.ofWorkflow w)
    rw [← hforget, final_forget] at honward
    have honce : w.OnceEach (final (Walk.visitNoting index s ids budget pos id (.ofWorkflow w, []))).2 :=
      hends.congr honward.dagPositions.symm
    exact ⟨hforget, honce, honce.length_le, hnoted⟩

/-- Dags that invoke one another in a ring, two of them by way of a shared one. -/
def knotted : Workflow :=
  .ofTemplates "main"
    [.ofDag "main" (.ofTasks [.invoking "first" "left", .invoking "second" "right"]),
      .ofDag "left" (.ofTasks [.invoking "inner" "shared"]),
      .ofDag "right" (.ofTasks [.invoking "inner" "shared", .invoking "back" "main"]),
      .ofDag "shared" (.ofTasks [.invoking "aside" "right"])]

/-- In the example the search ends at a cycle, and the walk goes through all the same. Either goes through the tasks of each
dag once. -/
theorem recursions_end_knotted :
    knotted.names.Nodup ∧ ∃ index, knotted.index = .ok index ∧
    (∀ budget, 5 ≤ budget → knotted.checkDag index budget 0 ⟨[], []⟩ = .error (.error (.dagCycle "shared"))) ∧
    knotted.OnceEach (final (knotted.checkDagNoting index 5 0 ⟨[], []⟩ [])) ∧
    final (knotted.checkDagNoting index 5 0 ⟨[], []⟩ []) = [0, 1, 3, 2] ∧
    ∀ budget, 5 ≤ budget →
      outcome (Walk.visit index ⟨.disabled, ⟨"", ""⟩, some "notify"⟩ .path budget 0 "root" (.ofWorkflow knotted)) = .ok () ∧
      (final (Walk.visit index ⟨.disabled, ⟨"", ""⟩, some "notify"⟩ .path budget 0 "root" (.ofWorkflow knotted))).dags =
        [0, 1, 3, 2] := by
  have hnames : knotted.names.Nodup := by decide
  have hindex : knotted.index = .ok [("main", 0), ("left", 1), ("right", 2), ("shared", 3)] := rfl
  obtain ⟨index, hindex', hsearch, hnoted, hwalk⟩ := recursions_end hnames 0
  cases hindex.symm.trans hindex'
  refine ⟨hnames, _, hindex, fun budget hbudget => ?_, (hnoted 5).2.1, rfl, fun budget hbudget => ?_⟩
  · rw [(hsearch budget hbudget).2]
    rfl
  · rw [((hwalk _ _ _).1 budget hbudget).2]
    exact ⟨rfl, rfl⟩

end Workflow

end WorkflowAugment

import WorkflowAugment.Proofs.Finding
import WorkflowAugment.Proofs.Search

/-!
# A search that is under way

`checkDag` may be asked to go on from any marks that can stand in the middle of a search (`Marks.Midway`), not only from
empty ones. What it adds to the marks is closed: all that a new dag invokes has been met and left by the time the search
comes back (`checkDag_searched`). So where a way leads on through dags that had not been met before, the search has gone
along it, and would have stopped at a dag on the path: to pass over a dag that has been met hides no cycle
(`Marks.Searched.left_of_way`). `checkDag_midway` puts this together with what is found at a fault.
-/

namespace WorkflowAugment

namespace Marks

/-- Marks that can stand in the middle of a search: the path has been met, only dags have been met, and those that have been
met and left are finished. -/
structure Midway (w : Workflow) (m : Marks) : Prop where
  onPath : m.onPath ⊆ m.seen
  dags : m.seen ⊆ w.dagPositions
  sound : m.Sound w

/-- If there is a dag at the position, it has been met and left. -/
def Left (w : Workflow) (m : Marks) (p : Nat) : Prop := p ∈ w.dagPositions → p ∈ m.seen ∧ p ∉ m.onPath

/-- What a search adds to the marks: dags, of which all that they invoke has been met and left. -/
structure Searched (w : Workflow) (m m' : Marks) : Prop extends m.Kept w m' where
  new : ∀ p ∈ m'.seen, p ∉ m.seen → p ∈ w.dagPositions ∧ ∀ c, w.Invokes p c → m'.Left w c

variable {w : Workflow} {m m' m'' : Marks} {p q : Nat}

/-- What has been left is not forgotten by a search that goes on. -/
theorem Left.mono (h : m.Left w p) (hkept : m.Kept w m') : m'.Left w p := by
  intro hdag
  obtain ⟨hseen, hpath⟩ := h hdag
  exact ⟨hkept.seen hseen, hkept.onPath ▸ hpath⟩

theorem Searched.refl (w : Workflow) (m : Marks) : m.Searched w m :=
  ⟨.refl w m, fun _ hp hnew => absurd hp hnew⟩

/-- What two searches add one after the other is what a search adds. -/
theorem Searched.trans (h : m.Searched w m') (h' : m'.Searched w m'') : m.Searched w m'' := by
  refine ⟨h.toKept.trans h'.toKept, fun p hp hnew => ?_⟩
  by_cases hmid : p ∈ m'.seen
  · obtain ⟨hdag, hleft⟩ := h.new p hmid hnew
    exact ⟨hdag, fun c hpc => (hleft c hpc).mono h'.toKept⟩
  · exact h'.new p hp hmid

/-- All that a way leads to has been left, if the way starts where a search has come back from and every dag that it goes
through is one that the search has added. -/
theorem Searched.left_of_way (h : m.Searched w m') (hp : m'.Left w p)
    (hway : Relation.ReflTransGen (fun a b => a ∉ m.seen ∧ w.Invokes a b) p q) : m'.Left w q := by
  induction hway with
  | refl => exact hp
  | tail _ hstep ih =>
    obtain ⟨hnew, hinvokes⟩ := hstep
    obtain ⟨t, _, ht, _⟩ := id hinvokes
    obtain ⟨hseen, _⟩ := ih (Workflow.mem_dagPositions.mpr ⟨t, ht, hinvokes.isDag ht⟩)
    exact (h.new _ hseen hnew).2 _ hinvokes

/-- No such way leads to a dag that is on the path. -/
theorem Searched.notMem_onPath (h : m.Searched w m') (hm : m.Midway w) (hp : m'.Left w p)
    (hway : Relation.ReflTransGen (fun a b => a ∉ m.seen ∧ w.Invokes a b) p q) : q ∉ m.onPath := by
  intro hq
  obtain ⟨_, hleft⟩ := h.left_of_way hp hway (hm.dags (hm.onPath hq))
  exact hleft (h.onPath ▸ hq)

/-- What a search from the middle adds to the marks is finished. -/
theorem Searched.finished (h : m.Searched w m') (hm : m.Midway w) (hp : p ∈ m'.seen) (hnew : p ∉ m.seen) :
    w.Finished p := by
  refine h.sound hm.sound p hp ?_
  rw [h.onPath]
  exact fun hpath => hnew (hm.onPath hpath)

/-- A search from the middle leaves marks from which one can go on. -/
theorem Searched.midway (h : m.Searched w m') (hm : m.Midway w) : m'.Midway w := by
  refine ⟨?_, ?_, h.sound hm.sound⟩
  · rw [h.onPath]
    exact List.Subset.trans hm.onPath h.seen
  · intro p hp
    by_cases hold : p ∈ m.seen
    · exact hm.dags hold
    · exact (h.new p hp hold).1

end Marks

namespace Workflow

variable {w : Workflow} {index : Index}

/-- A search that goes through adds what it has been through to the marks, and has left its position. -/
theorem checkDag_searched (hI : w.IndexedBy index) (budget : Nat) :
    ∀ {pos : Nat} {m m' : Marks}, w.checkDag index budget pos m = .ok m' → m.Searched w m' ∧ m'.Left w pos := by
  induction budget with
  | zero => intro pos m m' h; cases h
  | succ budget ih =>
    intro pos m m' h
    have hkept : m.Kept w m' := (checkDag_ok hI _ h).1
    rcases checkDag_eq_ok h with ⟨hnone, rfl⟩ | ⟨hpath, hseen, rfl⟩ |
      ⟨t, children, last, ht, hdag, hpath, hnew, hres, hlast, rfl⟩
    · refine ⟨.refl w _, fun hpos => ?_⟩
      obtain ⟨t, ht, hdag⟩ := mem_dagPositions.mp hpos
      exact absurd hdag (hnone t ht)
    · exact ⟨.refl w _, fun _ => ⟨hseen, hpath⟩⟩
    · obtain ⟨-, hinvokes⟩ := hI.of_mapM_resolve ht hres
      -- What an elder sibling has left stays left while the younger ones are searched.
      obtain ⟨hsearched, hchildren⟩ := Chain.foldlM_ok (Q := fun _ child m => m.Left w child) (Marks.Searched.refl w)
        Marks.Searched.trans (fun _ hQ hR => hQ.mono hR.toKept) (fun _ _ _ _ hc => ih hc) hlast
      -- The path behind the search is a part of the one that its children are searched with.
      have hleft : ∀ c, last.Left w c → Marks.Left w { last with onPath := last.onPath.erase pos } c :=
        fun c hc hcdag => ⟨(hc hcdag).1, fun hmem => (hc hcdag).2 (List.mem_of_mem_erase hmem)⟩
      refine ⟨⟨hkept, fun p hp hpnew => ?_⟩, fun _ => ⟨hsearched.seen List.mem_cons_self, hkept.onPath ▸ hpath⟩⟩
      by_cases hpp : p = pos
      · subst hpp
        exact ⟨mem_dagPositions.mpr ⟨t, ht, hdag⟩, fun c hpc => hleft c (hchildren c ((hinvokes c).mpr hpc))⟩
      · obtain ⟨hpdag, hpleft⟩ := hsearched.new p hp (by simp [hpp, hpnew])
        exact ⟨hpdag, fun c hpc => hleft c (hpleft c hpc)⟩

/-- What becomes of a search from the middle. If it goes through, one can go on from the marks that it leaves: the path is
what it was, nothing that had been met is forgotten, and what has been added are dags that are finished. The dag it was
asked for is among those that have been met then, and no way from there through dags that had not been met leads to one on
the path. Otherwise it has found a task behind its position that asks for a template that does not exist, or a dag there
that was on the path or invokes itself. -/
theorem checkDag_midway (hnames : w.names.Nodup) {m : Marks} (hm : m.Midway w) (pos : Nat) :
    ∃ index, w.index = .ok index ∧ ∀ budget, w.depthBudget ≤ budget →
      (∃ m', w.checkDag index budget pos m = .ok m' ∧ m'.Midway w ∧ m'.onPath = m.onPath ∧ m.seen ⊆ m'.seen ∧
        (∀ p ∈ m'.seen, p ∉ m.seen → p ∈ w.dagPositions ∧ w.Finished p) ∧
        (pos ∈ w.dagPositions → pos ∈ m'.seen) ∧
        ∀ q, Relation.ReflTransGen (fun a b => a ∉ m.seen ∧ w.Invokes a b) pos q → q ∉ m.onPath) ∨
      ∃ e, w.checkDag index budget pos m = .error (.error e) ∧ w.Fault m.onPath pos e := by
  obtain ⟨index, hindex⟩ := exists_index_iff.mpr hnames
  have hI : w.IndexedBy index := (index_ok hindex).2
  refine ⟨index, hindex, fun budget hbudget => ?_⟩
  cases hcheck : w.checkDag index budget pos m with
  | ok m' =>
    obtain ⟨hsearched, hpos⟩ := checkDag_searched hI budget hcheck
    left
    refine ⟨m', rfl, hsearched.midway hm, hsearched.onPath, hsearched.seen, ?_, fun hdag => (hpos hdag).1, ?_⟩
    · exact fun p hp hnew => ⟨(hsearched.new p hp hnew).1, hsearched.finished hm hp hnew⟩
    · exact fun q hway => hsearched.notMem_onPath hm hpos hway
  | error h =>
    right
    rcases checkDag_error hI budget hcheck with ⟨e, rfl, hfault⟩ | hspent
    · exact ⟨e, rfl, hfault⟩
    · exact absurd (fresh_lt_depthBudget w m.seen) (by omega)

/-- The middle dag of the example is searched while the outer one is on the path, and the shared one, which both invoke, has
been met and left: the search adds the middle one and no other. -/
theorem checkDag_midway_sharing :
    sharing.names.Nodup ∧ Marks.Midway sharing ⟨[0], [2, 0]⟩ ∧
    ∃ index, sharing.index = .ok index ∧
      sharing.checkDag index sharing.depthBudget 1 ⟨[0], [2, 0]⟩ = .ok ⟨[0], [1, 2, 0]⟩ ∧ sharing.Finished 1 ∧
      ∀ q, Relation.ReflTransGen (fun a b => a ∉ [2, 0] ∧ sharing.Invokes a b) 1 q → q ∉ [0] := by
  have hnames : sharing.names.Nodup := by decide
  have hindex : sharing.index = .ok [("main", 0), ("middle", 1), ("shared", 2), ("leaf", 3)] := rfl
  have hbefore : sharing.checkDag [("main", 0), ("middle", 1), ("shared", 2), ("leaf", 3)] sharing.depthBudget 2 ⟨[], []⟩ =
      .ok ⟨[], [2]⟩ := rfl
  have hshared : sharing.Finished 2 := (checkDag_ok (index_ok hindex).2 _ hbefore).2 (by simp [Marks.Sound])
  have hm : Marks.Midway sharing ⟨[0], [2, 0]⟩ := by
    refine ⟨by decide, by decide, fun p hp hleft => ?_⟩
    rcases List.mem_cons.mp hp with rfl | hp
    · exact hshared
    · exact absurd hp hleft
  obtain ⟨index, hindex', hsearch⟩ := checkDag_midway hnames hm 1
  cases hindex.symm.trans hindex'
  have hcheck : sharing.checkDag [("main", 0), ("middle", 1), ("shared", 2), ("leaf", 3)] sharing.depthBudget 1
      ⟨[0], [2, 0]⟩ = .ok ⟨[0], [1, 2, 0]⟩ := rfl
  rcases hsearch _ (Nat.le_refl _) with ⟨m', hok, -, -, -, hnew, -, hway⟩ | ⟨e, herr, -⟩
  · cases hcheck.symm.trans hok
    exact ⟨hnames, hm, _, hindex, hcheck, (hnew 1 (by decide) (by decide)).2, hway⟩
  · cases hcheck.symm.trans herr

end Workflow

end WorkflowAugment

import WorkflowAugment.Augment.Check
import WorkflowAugment.Proofs.Lookup

/-!
# Names and positions

A workflow has an index exactly when its templates have different names (`index_cases`), and then the index gives every
name the one position it stands at (`IndexedBy`). A task resolves exactly when its template exists.
-/

namespace WorkflowAugment

namespace Workflow

/-- The names of the templates, in the order of the document. -/
def names (w : Workflow) : List String := w.templates.map (·.name)

/-- The first template whose name has been given before is `t`, behind the templates `before`. -/
def RepeatsFirst (w : Workflow) (before : List Template) (t : Template) : Prop :=
  (∃ after, w.templates = before ++ t :: after) ∧ (before.map (·.name)).Nodup ∧ t.name ∈ before.map (·.name)

/-- Where the names of a workflow stand: an index answers with a position exactly if the name is that of the template
there. -/
def IndexedBy (w : Workflow) (index : Index) : Prop :=
  ∀ n p, index.lookup n = some p ↔ ∃ t, w.templates[p]? = some t ∧ t.name = n

end Workflow

/-! ## Making the index -/

namespace IndexAux

/-- The entries of templates, the first of which stands at position `n`. -/
def entries (n : Nat) (ts : List Template) : List (String × Nat) := (ts.zipIdx n).map fun e => (e.1.name, e.2)

@[simp] theorem entries_nil (n : Nat) : entries n [] = [] := rfl

/-- The first entry is that of the first template, and the others are counted from the next position. -/
@[simp] theorem entries_cons (n : Nat) (t : Template) (ts : List Template) :
    entries n (t :: ts) = (t.name, n) :: entries (n + 1) ts := rfl

/-- Making an index goes on to the end if no name is repeated, and stops at the first that is. -/
theorem indexFrom_cases (ts : List Template) :
    ∀ (n : Nat) (met : List (String × Nat)), (met.map (·.1)).Nodup →
      ((met.map (·.1) ++ ts.map (·.name)).Nodup ∧ Workflow.indexFrom n met ts = .ok (met ++ entries n ts)) ∨
      ∃ before t after, ts = before ++ t :: after ∧ (met.map (·.1) ++ before.map (·.name)).Nodup ∧
        t.name ∈ met.map (·.1) ++ before.map (·.name) ∧
        Workflow.indexFrom n met ts = .error (.duplicateTemplate t.name) := by
  induction ts with
  | nil =>
    intro n met hmet
    exact Or.inl ⟨by simpa using hmet, by simp [Workflow.indexFrom]⟩
  | cons t ts ih =>
    intro n met hmet
    by_cases hmem : t.name ∈ met.map (·.1)
    · refine Or.inr ⟨[], t, ts, rfl, by simpa using hmet, by simpa using hmem, ?_⟩
      rw [Workflow.indexFrom, if_pos (isSome_lookup_iff.mpr hmem)]
    · have hstep : Workflow.indexFrom n met (t :: ts) = Workflow.indexFrom (n + 1) (met ++ [(t.name, n)]) ts := by
        rw [Workflow.indexFrom, if_neg (mt isSome_lookup_iff.mp hmem)]
      have hmet' : ((met ++ [(t.name, n)]).map (·.1)).Nodup := by
        rw [List.map_append, List.nodup_append]
        refine ⟨hmet, by simp, ?_⟩
        intro a ha b hb hab
        simp only [List.map_cons, List.map_nil, List.mem_singleton] at hb
        exact hmem (hb ▸ hab ▸ ha)
      rcases ih (n + 1) _ hmet' with ⟨hnd, hok⟩ | ⟨before, u, after, rfl, hnd, hu, herr⟩
      · exact Or.inl ⟨by simpa using hnd, by rw [hstep, hok]; simp⟩
      · exact Or.inr ⟨t :: before, u, after, rfl, by simpa using hnd, by simpa using hu, by rw [hstep, herr]⟩

/-- Looking a name up among the entries of templates with different names gives the one position it stands at. -/
theorem lookup_entries_iff (ts : List Template) :
    ∀ (n : Nat), (ts.map (·.name)).Nodup → ∀ (k : String) (p : Nat),
      (entries n ts).lookup k = some p ↔ ∃ i t, ts[i]? = some t ∧ t.name = k ∧ p = n + i := by
  induction ts with
  | nil => intro n _ k p; simp
  | cons t ts ih =>
    intro n hnd k p
    rw [List.map_cons, List.nodup_cons] at hnd
    rw [entries_cons, List.lookup_cons]
    by_cases hk : k = t.name
    · subst hk
      simp only [beq_self_eq_true, Option.some.injEq]
      constructor
      · rintro rfl
        exact ⟨0, t, rfl, rfl, by omega⟩
      · rintro ⟨i, u, hu, hname, rfl⟩
        cases i with
        | zero => omega
        | succ i =>
          exfalso
          have hmem : u ∈ ts := List.mem_of_getElem? (by simpa using hu)
          exact hnd.1 (hname ▸ List.mem_map_of_mem hmem)
    · have hb : (k == t.name) = false := by simpa using hk
      rw [hb, ih (n + 1) hnd.2 k p]
      constructor
      · rintro ⟨i, u, hu, hname, rfl⟩
        exact ⟨i + 1, u, by simpa using hu, hname, by omega⟩
      · rintro ⟨i, u, hu, hname, rfl⟩
        cases i with
        | zero =>
          simp only [List.getElem?_cons_zero, Option.some.injEq] at hu
          exact absurd (hu ▸ hname).symm hk
        | succ i => exact ⟨i, u, by simpa using hu, hname, by omega⟩

end IndexAux

open IndexAux

namespace Workflow

/-- A workflow is indexed if its templates have different names; otherwise the first name that has been given before is the
error. -/
theorem index_cases (w : Workflow) :
    (w.names.Nodup ∧ ∃ index, w.index = .ok index ∧ w.IndexedBy index) ∨
      ∃ before t, w.RepeatsFirst before t ∧ w.index = .error (.duplicateTemplate t.name) := by
  rcases indexFrom_cases w.templates 0 [] (by simp) with ⟨hnd, hok⟩ | ⟨before, t, after, hts, hnd, ht, herr⟩
  · refine Or.inl ⟨by simpa [names] using hnd, _, hok, ?_⟩
    intro n p
    rw [List.nil_append, lookup_entries_iff w.templates 0 (by simpa using hnd) n p]
    constructor
    · rintro ⟨i, t, ht, hn, rfl⟩
      exact ⟨t, by simpa using ht, hn⟩
    · rintro ⟨t, ht, hn⟩
      exact ⟨p, t, ht, hn, by omega⟩
  · exact Or.inr ⟨before, t, ⟨⟨after, hts⟩, by simpa using hnd, by simpa using ht⟩, herr⟩

/-- A name that has been given before makes the names differ no more. -/
theorem RepeatsFirst.not_nodup {w : Workflow} {before : List Template} {t : Template} (h : w.RepeatsFirst before t) :
    ¬w.names.Nodup := by
  obtain ⟨⟨after, hts⟩, _, ht⟩ := h
  intro hnd
  rw [names, hts, List.map_append, List.nodup_append] at hnd
  exact hnd.2.2 _ ht _ (by simp) rfl

/-- An index that was made answers for the workflow, whose templates have different names. -/
theorem index_ok {w : Workflow} {index : Index} (h : w.index = .ok index) : w.names.Nodup ∧ w.IndexedBy index := by
  rcases w.index_cases with ⟨hnd, i, hok, hi⟩ | ⟨_, _, _, herr⟩
  · rw [h] at hok
    cases hok
    exact ⟨hnd, hi⟩
  · rw [h] at herr
    cases herr

end Workflow

/-! ## Resolving tasks -/

variable {w : Workflow} {index : Index}

/-- A name that is looked up in vain is the name of no template. -/
theorem Workflow.IndexedBy.lookup_eq_none_iff (hI : w.IndexedBy index) {n : String} :
    index.lookup n = none ↔ n ∉ w.names := by
  rw [Option.eq_none_iff_forall_ne_some]
  constructor
  · intro h hmem
    obtain ⟨t, ht, rfl⟩ := List.mem_map.mp hmem
    obtain ⟨p, hp⟩ := List.getElem?_of_mem ht
    exact h p ((hI _ p).mpr ⟨t, hp, rfl⟩)
  · intro h p hp
    obtain ⟨t, ht, rfl⟩ := (hI n p).mp hp
    exact h (List.mem_map_of_mem (List.mem_of_getElem? ht))

/-- If there is an index, templates of one name stand at one position. -/
theorem Workflow.IndexedBy.eq_of_name (hI : w.IndexedBy index) {p q : Nat} {t u : Template}
    (ht : w.templates[p]? = some t) (hu : w.templates[q]? = some u) (h : t.name = u.name) : p = q := by
  have hp : index.lookup u.name = some p := (hI _ p).mpr ⟨t, ht, h⟩
  rw [(hI _ q).mpr ⟨u, hu, rfl⟩] at hp
  exact (Option.some.inj hp).symm

/-- A task that resolves invokes the position that its template stands at. -/
theorem Index.resolve_eq_ok_iff {t : Task} {p : Nat} : index.resolve t = .ok p ↔ index.lookup t.template = some p := by
  unfold Index.resolve
  cases index.lookup t.template <;> simp

/-- A task fails to resolve only with an error that names it and what it asks for. -/
theorem Index.resolve_eq_error_iff {t : Task} {h : Halt} :
    index.resolve t = .error h ↔
      index.lookup t.template = none ∧ h = .error (.unknownTemplate (.task t.name) t.template) := by
  unfold Index.resolve
  cases index.lookup t.template with
  | none => simp [eq_comm]
  | some p => simp

end WorkflowAugment

import Mathlib.Data.List.Basic

/-!
# Steps that leave a state

A run that fails leaves the state that it has come to, as one that goes through does. So what every step of a list keeps
holds of the state behind all of them, wherever they end (`final_forM`, `ends_foldlM`). `beside` lets a run stand in a larger
state, the rest of which it knows nothing of, and `forget` takes that rest away again.
-/

namespace WorkflowAugment.Stateful

variable {α β ε σ τ : Type}

/-- The state that a run leaves. -/
def final : EStateM.Result ε σ α → σ
  | .ok _ s | .error _ s => s

/-- What a run comes to, whatever state it leaves. -/
def outcome : EStateM.Result ε σ α → Except ε α
  | .ok a _ => .ok a
  | .error e _ => .error e

@[simp] theorem final_ok (a : α) (s : σ) : final (.ok a s : EStateM.Result ε σ α) = s := rfl

@[simp] theorem final_error (e : ε) (s : σ) : final (.error e s : EStateM.Result ε σ α) = s := rfl

@[simp] theorem outcome_ok (a : α) (s : σ) : outcome (.ok a s : EStateM.Result ε σ α) = .ok a := rfl

@[simp] theorem outcome_error (e : ε) (s : σ) : outcome (.error e s : EStateM.Result ε σ α) = .error e := rfl

/-- A run has an error for its outcome if it ends with it in some state. -/
theorem outcome_eq_error_iff {r : EStateM.Result ε σ α} {e : ε} : outcome r = .error e ↔ ∃ s, r = .error e s := by
  cases r <;> simp

/-- A list of steps is the first and, if that goes through, the others behind it. -/
theorem forM_cons_apply (f : α → EStateM ε σ Unit) (x : α) (xs : List α) (s : σ) :
    (x :: xs).forM f s = match f x s with
      | .ok _ s' => xs.forM f s'
      | .error e s' => .error e s' := by
  cases h : f x s <;> simp [bind, EStateM.bind, h]

/-- A relation that every step keeps holds between the states in front of a list of steps and behind it. -/
theorem final_forM {f : α → EStateM ε σ Unit} {R : σ → σ → Prop} (refl : ∀ s, R s s)
    (trans : ∀ {s s' s''}, R s s' → R s' s'' → R s s'') {xs : List α} (step : ∀ x ∈ xs, ∀ s, R s (final (f x s))) :
    ∀ s, R s (final (xs.forM f s)) := by
  induction xs with
  | nil => exact refl
  | cons x xs ih =>
    intro s
    have hx := step x List.mem_cons_self s
    rw [forM_cons_apply]
    cases hrun : f x s with
    | ok _ s' =>
      rw [hrun] at hx
      exact trans hx (ih (fun y hy => step y (List.mem_cons_of_mem x hy)) s')
    | error e s' =>
      rw [hrun] at hx
      exact hx

/-- Two lists of steps do the same if each step does wherever it is come to. -/
theorem forM_congr {f g : α → EStateM ε σ Unit} {P : σ → Prop} {xs : List α}
    (step : ∀ x ∈ xs, ∀ s, P s → f x s = g x s ∧ P (final (g x s))) : ∀ {s}, P s → xs.forM f s = xs.forM g s := by
  induction xs with
  | nil => intro s _; rfl
  | cons x xs ih =>
    intro s hs
    obtain ⟨heq, hx⟩ := step x List.mem_cons_self s hs
    rw [forM_cons_apply, forM_cons_apply, heq]
    cases hrun : g x s with
    | ok _ s' =>
      rw [hrun] at hx
      exact ih (fun y hy => step y (List.mem_cons_of_mem x hy)) hx
    | error e s' => rfl

/-- A list of steps fails at one that it has come to by steps that went through. -/
theorem exists_of_forM_eq_error {f : α → EStateM ε σ Unit} {xs : List α} :
    ∀ {s s' : σ} {e : ε}, xs.forM f s = .error e s' →
      ∃ before x after mid, xs = before ++ x :: after ∧ before.forM f s = .ok () mid ∧ f x mid = .error e s' := by
  induction xs with
  | nil => intro s s' e h; cases h
  | cons x xs ih =>
    intro s s' e h
    rw [forM_cons_apply] at h
    cases hx : f x s with
    | error e' mid =>
      rw [hx] at h
      cases h
      exact ⟨[], x, xs, s, rfl, rfl, hx⟩
    | ok _ mid =>
      rw [hx] at h
      obtain ⟨before, y, after, last, rfl, hbefore, hy⟩ := ih h
      exact ⟨x :: before, y, after, last, rfl, by rw [forM_cons_apply, hx]; exact hbefore, hy⟩

/-! ## A state with more beside it -/

/-- The run, in a state that has something beside what the run knows of. -/
def beside (run : EStateM ε σ α) : EStateM ε (σ × τ) α := fun s =>
  match run s.1 with
  | .ok a s' => .ok a (s', s.2)
  | .error e s' => .error e (s', s.2)

/-- What a run comes to, without what the state has beside. -/
def forget : EStateM.Result ε (σ × τ) α → EStateM.Result ε σ α
  | .ok a s => .ok a s.1
  | .error e s => .error e s.1

@[simp] theorem forget_ok (a : α) (s : σ × τ) : forget (.ok a s : EStateM.Result ε (σ × τ) α) = .ok a s.1 := rfl

@[simp] theorem forget_error (e : ε) (s : σ × τ) : forget (.error e s : EStateM.Result ε (σ × τ) α) = .error e s.1 := rfl

/-- The state in which a run ends does not depend on what is beside it. -/
@[simp] theorem final_forget (r : EStateM.Result ε (σ × τ) α) : final (forget r) = (final r).1 := by
  cases r <;> rfl

/-- If what is beside makes no difference to any step, it makes none to all of them. -/
theorem forget_forM {f : α → EStateM ε (σ × τ) Unit} {g : α → EStateM ε σ Unit}
    (step : ∀ x s, forget (f x s) = g x s.1) (xs : List α) : ∀ s, forget (xs.forM f s) = xs.forM g s.1 := by
  induction xs with
  | nil => intro s; rfl
  | cons x xs ih =>
    intro s
    rw [forM_cons_apply, forM_cons_apply, ← step]
    cases f x s with
    | ok _ s' => exact ih s'
    | error e s' => rfl

/-! ## Steps that hand a value on -/

/-- What a run comes to satisfies `I` if it goes through, and the state that it leaves satisfies `E` if it fails. -/
def Ends (I : α → σ → Prop) (E : σ → Prop) : EStateM.Result ε σ α → Prop
  | .ok a s => I a s
  | .error _ s => E s

/-- What follows of the state in either case holds of the state that a run leaves. -/
theorem Ends.final {I : α → σ → Prop} {E P : σ → Prop} {r : EStateM.Result ε σ α} (h : Ends I E r)
    (hI : ∀ a s, I a s → P s) (hE : ∀ s, E s → P s) : P (final r) := by
  cases r with
  | ok a s => exact hI a s h
  | error e s => exact hE s h

/-- A chain of steps is the first and, if that goes through, the others behind it. -/
theorem foldlM_cons_apply (f : β → α → EStateM ε σ β) (x : α) (xs : List α) (b : β) (s : σ) :
    (x :: xs).foldlM f b s = match f b x s with
      | .ok b' s' => xs.foldlM f b' s'
      | .error e s' => .error e s' := by
  cases h : f b x s <;> simp [bind, EStateM.bind, h]

/-- What every step makes of what it finds, a chain makes of it. -/
theorem ends_foldlM {f : β → α → EStateM ε σ β} {I : β → σ → Prop} {E : σ → Prop}
    (step : ∀ x b s, I b s → Ends I E (f b x s)) (xs : List α) : ∀ b s, I b s → Ends I E (xs.foldlM f b s) := by
  induction xs with
  | nil => intro b s h; exact h
  | cons x xs ih =>
    intro b s h
    have hx := step x b s h
    rw [foldlM_cons_apply]
    cases hrun : f b x s with
    | ok b' s' =>
      rw [hrun] at hx
      exact ih b' s' hx
    | error e s' =>
      rw [hrun] at hx
      exact hx

/-- If the state makes no difference to what any step comes to, it makes none to a chain. -/
theorem outcome_foldlM {f : β → α → EStateM ε σ β} {g : β → α → Except ε β} (step : ∀ x b s, outcome (f b x s) = g b x)
    (xs : List α) : ∀ b s, outcome (xs.foldlM f b s) = xs.foldlM g b := by
  induction xs with
  | nil => intro b s; rfl
  | cons x xs ih =>
    intro b s
    rw [foldlM_cons_apply, List.foldlM_cons, ← step x b s]
    cases f b x s with
    | ok b' s' => exact ih b' s'
    | error e s' => rfl

end WorkflowAugment.Stateful

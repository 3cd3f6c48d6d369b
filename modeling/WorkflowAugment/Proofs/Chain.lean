import Mathlib.Data.List.Basic

/-!
# Lists of steps that can fail

A chain of steps either goes through, and then every step went through, or stops at the first step that fails. `foldlM_ok`
carries a relation between what a step starts from and what it leaves through a whole chain.
-/

namespace WorkflowAugment.Chain

variable {α β γ δ ε : Type}

/-- Two steps in a row go through exactly if each does. -/
theorem bind_eq_ok_iff {x : Except ε α} {f : α → Except ε β} {b : β} :
    (x >>= f) = .ok b ↔ ∃ a, x = .ok a ∧ f a = .ok b := by
  cases x <;> simp [bind, Except.bind]

/-- Two steps in a row fail exactly if the first does, or the second behind the first. -/
theorem bind_eq_error_iff {x : Except ε α} {f : α → Except ε β} {e : ε} :
    (x >>= f) = .error e ↔ x = .error e ∨ ∃ a, x = .ok a ∧ f a = .error e := by
  cases x <;> simp [bind, Except.bind]

/-- A step that is made into another goes through exactly if it does itself. -/
theorem map_eq_ok_iff {x : Except ε α} {f : α → β} {b : β} : x.map f = .ok b ↔ ∃ a, x = .ok a ∧ f a = b := by
  cases x <;> simp [Except.map]

/-- A map over a list goes through exactly if it does at every element. -/
theorem mapM_eq_ok_iff {f : α → Except ε β} {as : List α} :
    ∀ {bs : List β}, as.mapM f = .ok bs ↔ as.map f = bs.map .ok := by
  induction as with
  | nil =>
    intro bs
    rw [List.mapM_nil, List.map_nil, eq_comm (a := []), List.map_eq_nil_iff]
    exact ⟨fun h => (Except.ok.inj h).symm, fun h => h ▸ rfl⟩
  | cons a as ih =>
    intro bs
    rw [List.mapM_cons, bind_eq_ok_iff, List.map_cons]
    constructor
    · rintro ⟨b, hb, hrest⟩
      obtain ⟨bs', hbs', hpure⟩ := bind_eq_ok_iff.mp hrest
      cases hpure
      rw [List.map_cons, hb, ih.mp hbs']
    · intro h
      cases bs with
      | nil => cases h
      | cons b bs' =>
        rw [List.map_cons, List.cons.injEq] at h
        exact ⟨b, h.1, bind_eq_ok_iff.mpr ⟨bs', ih.mpr h.2, rfl⟩⟩

/-- What a map over a list gives is what it gives at the elements. -/
theorem mem_of_mapM_eq_ok {f : α → Except ε β} {as : List α} {bs : List β} (h : as.mapM f = .ok bs) (b : β) :
    b ∈ bs ↔ ∃ a ∈ as, f a = .ok b := by
  have hmem : .ok b ∈ bs.map (Except.ok (ε := ε)) ↔ b ∈ bs := List.mem_map_of_injective fun _ _ => Except.ok.inj
  rw [← hmem, ← mapM_eq_ok_iff.mp h, List.mem_map]

/-- A map over a list that goes through does so at every element. -/
theorem exists_of_mapM_eq_ok {f : α → Except ε β} {as : List α} {bs : List β} (h : as.mapM f = .ok bs) :
    ∀ a ∈ as, ∃ b, f a = .ok b := by
  intro a ha
  have hmem : f a ∈ bs.map .ok := mapM_eq_ok_iff.mp h ▸ List.mem_map_of_mem ha
  obtain ⟨b, _, hb⟩ := List.mem_map.mp hmem
  exact ⟨b, hb.symm⟩

/-- A map over a list fails only because it does at some element. -/
theorem exists_of_mapM_eq_error {f : α → Except ε β} {as : List α} {e : ε} (h : as.mapM f = .error e) :
    ∃ a ∈ as, f a = .error e := by
  induction as with
  | nil => cases h
  | cons a as ih =>
    rw [List.mapM_cons] at h
    rcases bind_eq_error_iff.mp h with ha | ⟨b, _, hrest⟩
    · exact ⟨a, List.mem_cons_self, ha⟩
    · rcases bind_eq_error_iff.mp hrest with has | ⟨_, _, hpure⟩
      · obtain ⟨a', ha', he⟩ := ih has
        exact ⟨a', List.mem_cons_of_mem a ha', he⟩
      · cases hpure

/-- What a map over a list needs in order to go through: to do so at every element. -/
theorem exists_mapM_eq_ok {f : α → Except ε β} {as : List α} (h : ∀ a ∈ as, ∃ b, f a = .ok b) :
    ∃ bs, as.mapM f = .ok bs := by
  induction as with
  | nil => exact ⟨[], rfl⟩
  | cons a as ih =>
    obtain ⟨b, hb⟩ := h a List.mem_cons_self
    obtain ⟨bs, hbs⟩ := ih fun x hx => h x (List.mem_cons_of_mem a hx)
    exact ⟨b :: bs, by rw [List.mapM_cons, hb, hbs]; rfl⟩

/-- What a map over a list gives can be changed at the end or element by element. -/
theorem map_mapM (f : α → Except ε β) (g : β → γ) (as : List α) :
    (as.mapM f).map (List.map g) = as.mapM fun a => (f a).map g := by
  induction as with
  | nil => rfl
  | cons a as ih =>
    rw [List.mapM_cons, List.mapM_cons, ← ih]
    cases f a with
    | error e => rfl
    | ok b => cases as.mapM f <;> rfl

/-- Two chains whose steps correspond correspond as a whole. -/
theorem map_foldlM {f : β → α → Except ε β} {f' : γ → δ → Except ε γ} (g : β → γ) (h : α → δ)
    (step : ∀ b a, (f b a).map g = f' (g b) (h a)) (as : List α) :
    ∀ b : β, (as.foldlM f b).map g = (as.map h).foldlM f' (g b) := by
  induction as with
  | nil => intro b; rfl
  | cons a as ih =>
    intro b
    rw [List.foldlM_cons, List.map_cons, List.foldlM_cons, ← step]
    cases f b a with
    | error e => rfl
    | ok b' => exact ih b'

/-- A relation that every step keeps holds of a whole chain, and what each step has shown holds of it too. -/
theorem foldlM_ok {f : β → α → Except ε β} {R : β → β → Prop} {Q : β → α → β → Prop} (refl : ∀ b, R b b)
    (trans : ∀ {a b c}, R a b → R b c → R a c)
    (widen : ∀ {a a' x b b'}, R a a' → Q a' x b → R b b' → Q a x b') {xs : List α}
    (step : ∀ x ∈ xs, ∀ a b, f a x = .ok b → R a b ∧ Q a x b) :
    ∀ {a b}, xs.foldlM f a = .ok b → R a b ∧ ∀ x ∈ xs, Q a x b := by
  induction xs with
  | nil =>
    intro a b h
    cases h
    exact ⟨refl a, by simp⟩
  | cons x xs ih =>
    intro a b h
    rw [List.foldlM_cons] at h
    obtain ⟨mid, hx, hxs⟩ := bind_eq_ok_iff.mp h
    obtain ⟨hR, hQ⟩ := step x List.mem_cons_self a mid hx
    obtain ⟨hR', hQ'⟩ := ih (fun y hy => step y (List.mem_cons_of_mem x hy)) hxs
    refine ⟨trans hR hR', ?_⟩
    intro y hy
    rcases List.mem_cons.mp hy with rfl | hy
    · exact widen (refl a) hQ hR'
    · exact widen hR (hQ' y hy) (refl b)

/-- A chain goes through if every step does and leaves what the next one needs. -/
theorem exists_foldlM_eq_ok {f : β → α → Except ε β} {P : β → Prop} {xs : List α}
    (step : ∀ x ∈ xs, ∀ a, P a → ∃ b, f a x = .ok b ∧ P b) : ∀ {a}, P a → ∃ b, xs.foldlM f a = .ok b := by
  induction xs with
  | nil => intro a _; exact ⟨a, rfl⟩
  | cons x xs ih =>
    intro a ha
    obtain ⟨mid, hx, hmid⟩ := step x List.mem_cons_self a ha
    obtain ⟨b, hb⟩ := ih (fun y hy => step y (List.mem_cons_of_mem x hy)) hmid
    exact ⟨b, by rw [List.foldlM_cons, hx]; exact hb⟩

/-- Two chains come to the same if each step does wherever it is come to. -/
theorem foldlM_congr {f g : β → α → Except ε β} {P : β → Prop} {xs : List α}
    (step : ∀ x ∈ xs, ∀ a, P a → f a x = g a x ∧ ∀ b, g a x = .ok b → P b) :
    ∀ {a}, P a → xs.foldlM f a = xs.foldlM g a := by
  induction xs with
  | nil => intro a _; rfl
  | cons x xs ih =>
    intro a ha
    obtain ⟨heq, hnext⟩ := step x List.mem_cons_self a ha
    rw [List.foldlM_cons, List.foldlM_cons, heq]
    cases hx : g a x with
    | error e => rfl
    | ok b => exact ih (fun y hy => step y (List.mem_cons_of_mem x hy)) (hnext b hx)

/-- A chain fails at a step that it has come to by steps that went through. -/
theorem exists_of_foldlM_eq_error {f : β → α → Except ε β} {xs : List α} :
    ∀ {a : β} {e : ε}, xs.foldlM f a = .error e →
      ∃ before x after mid, xs = before ++ x :: after ∧ before.foldlM f a = .ok mid ∧ f mid x = .error e := by
  induction xs with
  | nil => intro a e h; cases h
  | cons x xs ih =>
    intro a e h
    rw [List.foldlM_cons] at h
    rcases bind_eq_error_iff.mp h with hx | ⟨mid, hx, hxs⟩
    · exact ⟨[], x, xs, a, rfl, rfl, hx⟩
    · obtain ⟨before, y, after, last, rfl, hbefore, hy⟩ := ih hxs
      exact ⟨x :: before, y, after, last, rfl, by rw [List.foldlM_cons, hx]; exact hbefore, hy⟩

end WorkflowAugment.Chain

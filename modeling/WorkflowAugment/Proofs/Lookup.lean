import Mathlib.Data.List.Basic
import Mathlib.Data.List.Perm.Lattice
import WorkflowAugment.Dict

/-!
# Look-ups

A list of entries in which every name occurs once answers a look-up alike whatever its order (`lookup_eq_of_perm`), and a
dictionary is known by its look-ups (`Dict.ext_get?`). Where names are repeated the last entry of a name is the one that counts
(`lastNamed`, `Dict.get?_ofList`).
-/

namespace WorkflowAugment

section Lookup

variable {β γ : Type} {l : List (String × β)} {k : String} {v : β}

/-- Nothing is found under a name that no entry bears. -/
theorem lookup_eq_none_iff_notMem : l.lookup k = none ↔ k ∉ l.map (·.1) := by
  rw [List.lookup_eq_none_iff]
  simp only [bne_iff_ne, List.mem_map, not_exists, not_and]
  exact ⟨fun h e he hk => h e he hk.symm, fun h e he hk => h e he hk.symm⟩

/-- A name is looked up with success exactly if it is among the keys. -/
theorem isSome_lookup_iff : (l.lookup k).isSome ↔ k ∈ l.map (·.1) := by
  rw [Option.isSome_iff_ne_none, Ne, lookup_eq_none_iff_notMem, not_not]

/-- What is found is an entry. -/
theorem mem_of_lookup (h : l.lookup k = some v) : (k, v) ∈ l := by
  obtain ⟨l₁, l₂, rfl, -⟩ := List.lookup_eq_some_iff.mp h
  simp

/-- Where every name occurs once, an entry is found under its name. -/
theorem lookup_of_mem (hnd : (l.map (·.1)).Nodup) (h : (k, v) ∈ l) : l.lookup k = some v := by
  induction l with
  | nil => nomatch h
  | cons e l ih =>
    obtain ⟨k', v'⟩ := e
    rw [List.map_cons, List.nodup_cons] at hnd
    rw [List.lookup_cons]
    rcases List.mem_cons.mp h with heq | hmem
    · cases heq
      simp
    · have hne : k ≠ k' := by
        rintro rfl
        exact hnd.1 (List.mem_map.mpr ⟨_, hmem, rfl⟩)
      rw [beq_false_of_ne hne]
      exact ih hnd.2 hmem

/-- If no name is given twice, the entries are what is found under their names. -/
theorem mem_iff_lookup (hnd : (l.map (·.1)).Nodup) : (k, v) ∈ l ↔ l.lookup k = some v :=
  ⟨lookup_of_mem hnd, mem_of_lookup⟩

/-- Where every name occurs once, the order of the entries does not matter to a look-up. -/
theorem lookup_eq_of_perm {l' : List (String × β)} (hnd : (l.map (·.1)).Nodup) (hperm : l.Perm l') (k : String) :
    l.lookup k = l'.lookup k := by
  have hnd' : (l'.map (·.1)).Nodup := (hperm.map _).nodup_iff.mp hnd
  refine Option.ext fun v => ?_
  rw [← mem_iff_lookup hnd, ← mem_iff_lookup hnd', hperm.mem_iff]

/-- To look up what has been made of the values is to make it of what is looked up. -/
theorem lookup_map (f : β → γ) (k : String) : (l.map fun e => (e.1, f e.2)).lookup k = (l.lookup k).map f := by
  induction l with
  | nil => rfl
  | cons e l ih =>
    rw [List.map_cons, List.lookup_cons, List.lookup_cons, ih]
    cases k == e.1 <;> rfl

/-- Changing the values leaves the names. -/
theorem keys_map (f : β → γ) (l : List (String × β)) : (l.map fun e => (e.1, f e.2)).map (·.1) = l.map (·.1) := by
  rw [List.map_map]
  rfl

/-- In entries that are filtered by their names the kept names are looked up as before. -/
theorem lookup_filter (p : String → Bool) (k : String) :
    (l.filter fun e => p e.1).lookup k = if p k then l.lookup k else none := by
  induction l with
  | nil => simp
  | cons e l ih =>
    obtain ⟨k', v⟩ := e
    by_cases hk : k = k'
    · subst hk
      by_cases hp : p k
      · simp [hp]
      · simp only [List.filter_cons, hp, Bool.false_eq_true, if_false, ih]
    · rw [List.filter_cons, List.lookup_cons, beq_false_of_ne hk]
      split
      · rw [List.lookup_cons, beq_false_of_ne hk]
        exact ih
      · exact ih

end Lookup

/-! ## The last entry of a name -/

/-- The value of the last entry of a name. -/
def lastNamed {β : Type} (k : String) (l : List (String × β)) : Option β := l.reverse.lookup k

section LastNamed

variable {β γ : Type} {l : List (String × β)} {k : String} {v : β}

/-- An entry counts unless one of its name comes after it. -/
theorem lastNamed_cons (e : String × β) (l : List (String × β)) :
    lastNamed k (e :: l) = (lastNamed k l).or (if e.1 = k then some e.2 else none) := by
  rw [lastNamed, List.reverse_cons, List.lookup_append, lastNamed, List.lookup_cons, List.lookup_nil]
  by_cases hk : e.1 = k
  · rw [if_pos hk, hk, beq_self_eq_true]
  · rw [if_neg hk, beq_false_of_ne (Ne.symm hk)]

/-- The last entry of what has been made of the values is made of the last entry. -/
theorem lastNamed_map (f : β → γ) (k : String) (l : List (String × β)) :
    lastNamed k (l.map fun e => (e.1, f e.2)) = (lastNamed k l).map f := by
  rw [lastNamed, ← List.map_reverse, lookup_map, lastNamed]

/-- In entries that are filtered by their names the kept names have the same last entry. -/
theorem lastNamed_filter (p : String → Bool) (k : String) (l : List (String × β)) :
    lastNamed k (l.filter fun e => p e.1) = if p k then lastNamed k l else none := by
  rw [lastNamed, ← List.filter_reverse, lookup_filter, lastNamed]

/-- The last entry of a name is an entry. -/
theorem mem_of_lastNamed (h : lastNamed k l = some v) : (k, v) ∈ l := List.mem_reverse.mp (mem_of_lookup h)

/-- Where every name occurs once, the last entry of a name is the only one. -/
theorem lastNamed_eq_lookup (hnd : (l.map (·.1)).Nodup) (k : String) : lastNamed k l = l.lookup k :=
  (lookup_eq_of_perm hnd l.reverse_perm.symm k).symm

end LastNamed

/-! ## Related look-ups -/

section Related

variable {β γ δ ε : Type} {r s : β → γ → Prop} {o : Option β} {o' : Option γ}

/-- A relation of what may be there implies a weaker one. -/
theorem rel_imp (h : Option.Rel r o o') (hrs : ∀ x ∈ o, ∀ y ∈ o', r x y → s x y) : Option.Rel s o o' := by
  cases h with
  | none => exact .none
  | some hr => exact .some (hrs _ rfl _ rfl hr)

/-- If what is made of both is related, they are related by way of it. -/
theorem rel_of_map {f : δ → β} {g : ε → γ} {o : Option δ} {o' : Option ε} (h : Option.Rel r (o.map f) (o'.map g)) :
    Option.Rel (fun x y => r (f x) (g y)) o o' := by
  cases o <;> cases o' <;> cases h
  · exact .none
  · exact .some ‹_›

/-- Of two that are related both are there or neither is. -/
theorem isSome_eq_of_rel (h : Option.Rel r o o') : o.isSome = o'.isSome := by
  cases h <;> rfl

/-- The same is made of two that are related, if it is of any two values that are. -/
theorem map_eq_of_rel (h : Option.Rel r o o') {f : β → δ} {g : γ → δ} (hfg : ∀ x y, r x y → f x = g y) :
    o.map f = o'.map g := by
  cases h with
  | none => rfl
  | some hr => exact congrArg some (hfg _ _ hr)

/-- Two that are related have a property both or neither, if any two values that are related do. -/
theorem forall_mem_iff_of_rel (h : Option.Rel r o o') {p : β → Prop} {q : γ → Prop} (hpq : ∀ x y, r x y → (p x ↔ q y)) :
    (∀ x ∈ o, p x) ↔ ∀ y ∈ o', q y := by
  cases h with
  | none => simp
  | some hr => simp [hpq _ _ hr]

/-- Entries with the same names in the same order and with related values answer each look-up with related values. -/
theorem rel_lookup {l : List (String × β)} {l' : List (String × γ)} (hnames : l.map (·.1) = l'.map (·.1))
    (hvalues : List.Forall₂ r (l.map (·.2)) (l'.map (·.2))) (k : String) : Option.Rel r (l.lookup k) (l'.lookup k) := by
  induction l generalizing l' with
  | nil =>
    rw [List.map_eq_nil_iff.mp hnames.symm]
    exact .none
  | cons e l ih =>
    cases l' with
    | nil => nomatch hnames
    | cons e' l' =>
      rw [List.map_cons, List.map_cons, List.cons.injEq] at hnames
      obtain ⟨hvalue, hvalues⟩ := List.forall₂_cons.mp hvalues
      rw [List.lookup_cons, List.lookup_cons, ← hnames.1]
      cases k == e.1 with
      | true => exact .some hvalue
      | false => exact ih hnames.2 hvalues

end Related

/-! ## Dictionaries -/

namespace Dict

variable {β : Type}

/-- An entry whose key is above all others is put at the end. -/
theorem insertEntry_of_lt {k : String} (v : β) {l : List (String × β)} (h : ∀ e ∈ l, e.1 < k) :
    insertEntry k v l = l ++ [(k, v)] := by
  induction l with
  | nil => rfl
  | cons e l ih =>
    obtain ⟨k', v'⟩ := e
    have hlt : k' < k := h _ List.mem_cons_self
    have hnot : ¬k < k' := String.lt_asymm hlt
    have hne : k ≠ k' := fun heq => hnot (heq ▸ hlt)
    rw [insertEntry, if_neg hnot, if_neg hne, ih fun e he => h e (List.mem_cons_of_mem _ he)]
    rfl

/-- To ask a dictionary is to look up its entries. -/
theorem get?_eq_lookup (d : Dict β) (k : String) : d.get? k = d.entries.lookup k := by
  rw [get?]
  induction d.entries with
  | nil => rfl
  | cons e l ih =>
    rw [List.find?_cons, List.lookup_cons]
    by_cases hk : e.1 = k
    · simp [hk]
    · simp only [hk, decide_false, ih, beq_false_of_ne (Ne.symm hk)]

/-- Every key occurs once. -/
theorem nodup_keys (d : Dict β) : (d.entries.map (·.1)).Nodup :=
  List.pairwise_map.mpr (d.ascending.imp String.ne_of_lt)

/-- Dictionaries that answer every look-up alike are equal. -/
theorem ext_get? {d e : Dict β} (h : ∀ k, d.get? k = e.get? k) : d = e := by
  have hmem : ∀ a, a ∈ d.entries ↔ a ∈ e.entries := by
    intro ⟨k, v⟩
    rw [mem_iff_lookup d.nodup_keys, mem_iff_lookup e.nodup_keys, ← get?_eq_lookup, ← get?_eq_lookup, h k]
  have hperm : d.entries.Perm e.entries :=
    (List.perm_ext_iff_of_nodup d.nodup_keys.of_map e.nodup_keys.of_map).mpr hmem
  refine ext (hperm.eq_of_pairwise (fun a b _ _ hab hba => ?_) d.ascending e.ascending)
  exact absurd hab (String.lt_asymm hba)

/-- Of two writes to one key the last one stands. -/
theorem insert_insert (d : Dict β) (k : String) (v v' : β) : (d.insert k v).insert k v' = d.insert k v' := by
  refine ext_get? fun k' => ?_
  rw [get?_insert, get?_insert, get?_insert]
  split <;> rfl

/-- A dictionary written entry by entry answers for each key what was written for it last. -/
theorem get?_ofList (l : List (String × β)) (k : String) : (ofList l).get? k = lastNamed k l := by
  have hfold : ∀ d : Dict β, (l.foldl (fun d e => d.insert e.1 e.2) d).get? k = (lastNamed k l).or (d.get? k) := by
    induction l with
    | nil => intro d; rfl
    | cons e l ih =>
      intro d
      rw [List.foldl_cons, ih, get?_insert, lastNamed_cons, Option.or_assoc]
      split <;> rfl
  rw [ofList, hfold, get?_empty, Option.or_none]

/-- What was written once for each key is looked up where it was written. -/
theorem get?_ofList_of_nodup {l : List (String × β)} (hnd : (l.map (·.1)).Nodup) (k : String) :
    (ofList l).get? k = l.lookup k := by
  rw [get?_ofList, lastNamed_eq_lookup hnd]

/-- The entries of a dictionary written entry by entry are among these. -/
theorem mem_of_mem_ofList {l : List (String × β)} {e : String × β} (h : e ∈ (ofList l).entries) : e ∈ l := by
  have hfold : ∀ d : Dict β, e ∈ (l.foldl (fun d e => d.insert e.1 e.2) d).entries → e ∈ d.entries ∨ e ∈ l := by
    clear h
    induction l with
    | nil => exact fun d h => .inl h
    | cons a l ih =>
      intro d h
      rcases ih (d.insert a.1 a.2) h with h | h
      · rcases mem_insertEntry h with rfl | h
        · exact .inr List.mem_cons_self
        · exact .inl h
      · exact .inr (List.mem_cons_of_mem _ h)
  exact (hfold empty h).resolve_left List.not_mem_nil

/-- A dictionary is what its entries make up. -/
@[simp] theorem ofList_entries (d : Dict β) : ofList d.entries = d :=
  ext_get? fun k => by rw [get?_ofList_of_nodup d.nodup_keys, get?_eq_lookup]

end Dict

end WorkflowAugment

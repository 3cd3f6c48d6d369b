/-!
# Ascending dictionaries

A dictionary with text keys lists its entries in ascending order of code points, each key once. The order is part of the
type, so two dictionaries that answer every look-up alike are equal. The view is `get?`: `get?_insert` says what a write
does to it.
-/

namespace WorkflowAugment

/-- A finite map from texts, listed by ascending key. -/
structure Dict (β : Type) where
  entries : List (String × β)
  ascending : entries.Pairwise (fun a b => a.1 < b.1)

namespace Dict

variable {β : Type}

/-- A dictionary is its entries. -/
@[ext] theorem ext {d e : Dict β} (h : d.entries = e.entries) : d = e := by
  cases d; cases e; simp_all

instance [DecidableEq β] : DecidableEq (Dict β) := fun d e =>
  decidable_of_iff (d.entries = e.entries) ⟨ext, fun h => h ▸ rfl⟩

/-- The dictionary without entries. -/
def empty : Dict β := ⟨[], .nil⟩

instance : Inhabited (Dict β) := ⟨empty⟩

/-- The list with an entry put at its place, instead of the one of the same key if there is one. -/
def insertEntry (k : String) (v : β) : List (String × β) → List (String × β)
  | [] => [(k, v)]
  | (k', v') :: rest =>
    if k < k' then (k, v) :: (k', v') :: rest
    else if k = k' then (k, v) :: rest
    else (k', v') :: insertEntry k v rest

/-- Every entry after a write is the new one or was there before. -/
theorem mem_insertEntry {k : String} {v : β} {l : List (String × β)} {e : String × β}
    (h : e ∈ insertEntry k v l) : e = (k, v) ∨ e ∈ l := by
  induction l with
  | nil => simpa [insertEntry] using h
  | cons a l ih =>
    obtain ⟨k', v'⟩ := a
    unfold insertEntry at h
    split at h
    · simpa using h
    · split at h
      · rcases List.mem_cons.1 h with h | h
        · exact .inl h
        · exact .inr (List.mem_cons_of_mem _ h)
      · rcases List.mem_cons.1 h with h | h
        · exact .inr (h ▸ List.mem_cons_self)
        · exact (ih h).imp id (List.mem_cons_of_mem _)

/-- A write keeps the order. -/
theorem ascending_insertEntry (k : String) (v : β) {l : List (String × β)}
    (h : l.Pairwise (fun a b => a.1 < b.1)) : (insertEntry k v l).Pairwise (fun a b => a.1 < b.1) := by
  induction l with
  | nil => simp [insertEntry]
  | cons a l ih =>
    obtain ⟨k', v'⟩ := a
    obtain ⟨hk, hl⟩ := List.pairwise_cons.1 h
    unfold insertEntry
    split
    · rename_i hlt
      refine List.pairwise_cons.2 ⟨fun e he => ?_, h⟩
      rcases List.mem_cons.1 he with rfl | he
      · exact hlt
      · exact String.lt_trans hlt (hk e he)
    · split
      · rename_i heq
        exact List.pairwise_cons.2 ⟨fun e he => heq ▸ hk e he, hl⟩
      · rename_i hlt hne
        refine List.pairwise_cons.2 ⟨fun e he => ?_, ih hl⟩
        rcases mem_insertEntry he with rfl | he
        · have := String.not_lt.1 hlt
          grind
        · exact hk e he

/-- The dictionary after a write: the last value given for a key stands. -/
def insert (d : Dict β) (k : String) (v : β) : Dict β :=
  ⟨insertEntry k v d.entries, ascending_insertEntry k v d.ascending⟩

/-- `insertEntry` together with the value that the key had before, in one pass. -/
def replaceEntry (k : String) (v : β) : List (String × β) → Option β × List (String × β)
  | [] => (none, [(k, v)])
  | (k', v') :: rest =>
    if k < k' then (none, (k, v) :: (k', v') :: rest)
    else if k = k' then (some v', (k, v) :: rest)
    else
      let (old, rest) := replaceEntry k v rest
      (old, (k', v') :: rest)

/-- To replace leaves the same entries as to insert. -/
theorem replaceEntry_snd (k : String) (v : β) (l : List (String × β)) : (replaceEntry k v l).2 = insertEntry k v l := by
  induction l with
  | nil => rfl
  | cons a l ih =>
    obtain ⟨k', v'⟩ := a
    rw [replaceEntry, insertEntry]
    split
    · rfl
    · split
      · rfl
      · simp only [ih]

/-- The value that a write took the place of, if any, and the dictionary after the write. -/
def replace (d : Dict β) (k : String) (v : β) : Option β × Dict β :=
  let r := replaceEntry k v d.entries
  (r.1, ⟨r.2, replaceEntry_snd k v d.entries ▸ ascending_insertEntry k v d.ascending⟩)

/-- The value of a key. -/
def get? (d : Dict β) (k : String) : Option β := (d.entries.find? (·.1 = k)).map (·.2)

/-- How many keys there are. -/
def size (d : Dict β) : Nat := d.entries.length

/-- There are no entries. -/
def isEmpty (d : Dict β) : Bool := d.entries.isEmpty

/-- The entries written one after another into an empty dictionary. -/
def ofList (l : List (String × β)) : Dict β := l.foldl (fun d e => d.insert e.1 e.2) empty

/-- After a write the key has the new value and every other key what it had. -/
theorem get?_insert (d : Dict β) (k : String) (v : β) (k' : String) :
    (d.insert k v).get? k' = if k = k' then some v else d.get? k' := by
  unfold get? insert
  simp only
  induction d.entries with
  | nil => by_cases h : k = k' <;> simp [insertEntry, h]
  | cons a l ih =>
    obtain ⟨k₁, v₁⟩ := a
    rw [insertEntry]
    split
    · simp only [List.find?_cons]
      by_cases h : k = k' <;> simp [h]
    · split
      · rename_i heq
        subst heq
        simp only [List.find?_cons]
        by_cases h : k = k' <;> simp [h]
      · rename_i hne
        simp only [List.find?_cons]
        by_cases h : k₁ = k'
        · have : ¬k = k' := fun hk => hne (hk.trans h.symm)
          simp [h, this]
        · simpa [h] using ih

/-- The new dictionary is that of `insert`, whatever was there. -/
@[simp] theorem replace_snd (d : Dict β) (k : String) (v : β) : (d.replace k v).2 = d.insert k v :=
  ext (replaceEntry_snd k v d.entries)

/-- A write gives back what a look-up would have found. -/
@[simp] theorem replace_fst (d : Dict β) (k : String) (v : β) : (d.replace k v).1 = d.get? k := by
  unfold get? replace
  simp only
  have hasc := d.ascending
  generalize d.entries = l at hasc
  induction l with
  | nil => rfl
  | cons a l ih =>
    obtain ⟨k', v'⟩ := a
    obtain ⟨hk, hl⟩ := List.pairwise_cons.1 hasc
    rw [replaceEntry]
    split
    · -- All keys are above the new one, so the rest of the list need not be looked at.
      rename_i hlt
      have habove : ∀ e ∈ (k', v') :: l, ¬e.1 = k := by
        rintro e he rfl
        rcases List.mem_cons.1 he with rfl | he
        · exact String.lt_irrefl _ hlt
        · exact String.lt_asymm hlt (hk e he)
      rw [List.find?_eq_none.2 fun e he => by simpa using habove e he]
      rfl
    · split
      · rename_i heq
        simp [heq]
      · rename_i hne
        rw [List.find?_cons, ih hl]
        simp [Ne.symm hne]

@[simp] theorem get?_empty (k : String) : (empty : Dict β).get? k = none := rfl

end Dict

end WorkflowAugment

import WorkflowAugment.Proofs.Json.Groups

/-!
# What documents denote

A codec denotes values by a relation if it reads just the trees that are related to a value, and reads them as that value. The
relation is said without the reader, so the law says all that there is to know about reading (`Codec.Denotes.read_eq_ok_iff`). It
is lifted through the ways to build codecs, slots and layouts of settings, as the laws about what is written.
-/

namespace WorkflowAugment

/-! ## Texts and named variants -/

namespace Tree

/-- A valid tree is null exactly if what it spells is. -/
theorem json_eq_null_iff {t : Tree} (h : t.Valid) : t.json = .null ↔ t = .null := by
  constructor
  · intro hnull
    have hspells := h.spells
    rw [hnull] at hspells
    cases hspells
    rfl
  · rintro rfl
    simp [json]

/-- The spellings of a text are the quoted texts whose pieces give it. -/
theorem spells_string_iff {t : Tree} {s : String} : t.Spells (.string s) ↔ ∃ ps, t = .string ps ∧ Piece.text ps = .ok s := by
  constructor
  · rintro ⟨⟩
    exact ⟨_, rfl, ‹_›⟩
  · rintro ⟨ps, rfl, h⟩
    exact .string h

/-- What a text is written as spells it. -/
theorem spells_toTree_string (s : String) : (Json.string s).toTree.Spells (.string s) :=
  spells_string_iff.mpr ⟨_, by rw [Json.toTree], Piece.text_ofString s⟩

/-- An object with one member that is null has nothing else in it. -/
theorem spells_nullMember_iff {t : Tree} {s : String} :
    t.Spells (.object [(s, .null)]) ↔ ∃ ps, t = .object (.member ps .null .close) ∧ Piece.text ps = .ok s := by
  constructor
  · rintro ⟨⟩
    rename_i members hcomplete hvalid hms
    cases members with
    | close | stop | strayName | brokenName => nomatch hms
    | member ps value tail =>
      rw [Members.toList, List.map_cons, List.cons.injEq, Prod.mk.injEq] at hms
      obtain ⟨⟨rfl, hnull⟩, htail⟩ := hms
      obtain ⟨⟨s, hs⟩, hcomplete⟩ := hcomplete
      obtain rfl : value = .null := (json_eq_null_iff (hvalid _ List.mem_cons_self)).mp hnull.symm
      rw [spelled_of_text hs]
      refine ⟨ps, ?_, hs⟩
      cases tail with
      | close => rfl
      | member => nomatch htail
      | stop | strayName | brokenName => exact hcomplete.elim
  · rintro ⟨ps, rfl, h⟩
    refine .object ⟨⟨s, h⟩, trivial⟩ ?_ ?_
    · intro m hm
      obtain rfl := List.mem_singleton.mp hm
      exact ⟨0, by simp [fault?]⟩
    · simp [Members.toList, spelled_of_text h, json]

end Tree

namespace Shape

variable {room : Nat} {t : Tree}

/-- A checked text is accepted if it is a text with which nothing is wrong. -/
theorem checked_eq_none_iff {check : String → Option String} :
    (checked check).problem? room t = none ↔ ∃ s, t.Spells (.string s) ∧ check s = none := by
  simp only [Tree.spells_string_iff]
  rw [problem?]
  cases t with
  | string ps =>
    rw [Tree.stringProblem?]
    cases htext : Piece.text ps <;> simp [htext]
  | _ => simp [Tree.stringProblem?]

/-- One of the named variants is its name, or an object with the name as the only member and null as the value. -/
theorem variant_eq_none_iff {names : List String} : (variant names).problem? room t = none ↔
    ∃ s ∈ names, t.Spells (.string s) ∨ room ≠ 0 ∧ t.Spells (.object [(s, .null)]) := by
  simp only [Tree.spells_string_iff, Tree.spells_nullMember_iff]
  rw [problem?]
  constructor
  · intro h
    cases t with
    | string ps =>
      cases htext : Piece.text ps with
      | error f => simp [Tree.variantProblem?, htext] at h
      | ok s => exact ⟨s, by simpa [Tree.variantProblem?, htext] using h, .inl ⟨ps, rfl, htext⟩⟩
    | object members =>
      by_cases hroom : room = 0
      · simp [Tree.variantProblem?.eq_def, hroom] at h
      cases members with
      | member ps value tail =>
        cases htext : Piece.text ps with
        | error f => simp [Tree.variantProblem?.eq_def, hroom, htext] at h
        | ok s =>
          by_cases hs : s ∈ names
          · cases value with
            | null =>
              cases tail with
              | close => exact ⟨s, hs, .inr ⟨hroom, ps, rfl, htext⟩⟩
              | _ => simp [Tree.variantProblem?, hroom, htext, hs] at h
            | _ => simp [Tree.variantProblem?, hroom, htext, hs] at h
          · simp [Tree.variantProblem?.eq_def, hroom, htext, hs] at h
      | _ => simp [Tree.variantProblem?, hroom] at h
    | _ => simp [Tree.variantProblem?] at h
  · rintro ⟨s, hs, ⟨ps, rfl, htext⟩ | ⟨hroom, ps, rfl, htext⟩⟩
    · simp [Tree.variantProblem?, htext, hs]
    · simp [Tree.variantProblem?, htext, hs, hroom]

end Shape

variable {α β τ : Type} {n : Nat}

/-! ## The law -/

/-- In room for documents that are nested `n` deep, a tree is read as a value exactly if it denotes the value. -/
structure Codec.Denotes (c : Codec α) (P : α → Tree → Prop) (n : Nat) : Prop where
  reads : ∀ {room t a}, n ≤ room → (c.shape.problem? room t = none ∧ c.value t = a ↔ P a t)

/-- In room for `n`, the value of a member, or its absence, is read as a value exactly if it denotes the value. -/
structure Slot.Denotes (s : Slot α) (P : α → Option Tree → Prop) (n : Nat) : Prop where
  reads : ∀ {room o a}, n ≤ room → ((∀ t ∈ o, s.shape.problem? room t = none) ∧ s.value o = a ↔ P a o)

/-- In room for `n`, members are read as values of the fields exactly if they denote the values. Only the fields matter. -/
structure Layout.Denotes (l : Layout τ) (P : τ → List (String × Tree) → Prop) (n : Nat) : Prop where
  nodup : l.fields.names.Nodup
  value_congr : ∀ {ms ms' : List (String × Tree)}, (∀ k ∈ l.fields.names, ms.lookup k = ms'.lookup k) →
    l.value ms = l.value ms'
  reads : ∀ {room ms x}, n ≤ room → (l.fields.Accept room ms ∧ l.value ms = x ↔ P x ms)

/-! ## Members and their values -/

/-- What may be left out stands for the default if it is left out, and else for what it stands for by itself. -/
inductive OrDefault (P : α → β → Prop) (fallback : α) : α → Option β → Prop
  | absent : OrDefault P fallback fallback none
  | present {a : α} {b : β} (h : P a b) : OrDefault P fallback a (some b)

/-- What a text in a document denotes: what it stands for. -/
def Worded (P : α → String → Prop) (a : α) (t : Tree) : Prop := ∃ s, t.Spells (.string s) ∧ P a s

/-- What a value that may be null denotes: nothing if it is null, and else what it denotes by itself. -/
inductive OrNull (P : α → Tree → Prop) : Option α → Tree → Prop
  | null : OrNull P none .null
  | value {a : α} {t : Tree} (h : P a t) : OrNull P (some a) t

section OrDefault

variable {P : α → β → Prop} {fallback a : α}

/-- What is left out stands for the default. -/
theorem orDefault_none_iff : OrDefault P fallback a none ↔ a = fallback := by
  constructor
  · rintro ⟨⟩
    rfl
  · rintro rfl
    exact .absent

/-- What is there stands for what it stands for by itself. -/
theorem orDefault_some_iff {b : β} : OrDefault P fallback a (some b) ↔ P a b := by
  constructor
  · rintro ⟨⟩
    assumption
  · exact .present

/-- What may be left out stands for the same as something else, if it is left out just where that is, and both stand for the same
where they are not. -/
theorem orDefault_congr {r : β → β → Prop} {o o' : Option β} (h : Option.Rel r o o')
    (hr : ∀ b b', r b b' → (P a b ↔ P a b')) : OrDefault P fallback a o ↔ OrDefault P fallback a o' := by
  cases h with
  | none => rfl
  | some h => rw [orDefault_some_iff, orDefault_some_iff, hr _ _ h]

end OrDefault

namespace Slot.Denotes

variable {c : Codec α} {P : α → Tree → Prop}

/-- A member with a default denotes that if it is left out. -/
theorem default (h : c.Denotes P n) (fallback : α) (omitted : α → Bool) :
    (Slot.default c fallback omitted).Denotes (OrDefault P fallback) n where
  reads {room o a} hroom := by
    cases o with
    | none =>
      rw [orDefault_none_iff]
      exact ⟨fun h => h.2.symm, fun h => ⟨nofun, h.symm⟩⟩
    | some t =>
      rw [orDefault_some_iff, ← h.reads hroom]
      simp [Slot.default]

/-- A member that may be left out or null denotes nothing then. -/
theorem optional (h : c.Denotes P n) (hnull : ∀ a, ¬P a .null) :
    (Slot.optional c).Denotes (OrDefault (OrNull P) none) n where
  reads {room o a} hroom := by
    cases o with
    | none =>
      rw [orDefault_none_iff]
      exact ⟨fun h => h.2.symm, fun h => ⟨nofun, h.symm⟩⟩
    | some t =>
      rw [orDefault_some_iff]
      by_cases ht : t = .null
      · subst ht
        constructor
        · rintro ⟨-, rfl⟩
          exact .null
        · rintro (_ | h)
          · exact ⟨fun t ht => Option.some.inj ht ▸ Shape.nullable_eq_none_iff.mpr (.inl rfl), rfl⟩
          · exact absurd h (hnull _)
      · rw [optional_value_of_ne ht]
        constructor
        · rintro ⟨hfits, rfl⟩
          have hshape := (Shape.nullable_eq_none_iff.mp (hfits t rfl)).resolve_left ht
          exact .value ((h.reads hroom).mp ⟨hshape, rfl⟩)
        · rintro (_ | hP)
          · exact absurd rfl ht
          · obtain ⟨hshape, hvalue⟩ := (h.reads hroom).mpr hP
            exact ⟨fun t ht => Option.some.inj ht ▸ Shape.nullable_eq_none_iff.mpr (.inr hshape), congrArg some hvalue⟩

end Slot.Denotes

namespace Layout.Denotes

/-- Without fields there is nothing that members could fail to denote. -/
theorem done : Layout.done.Denotes (fun _ _ => True) 0 where
  nodup := .nil
  value_congr _ := rfl
  reads _ := iff_of_true ⟨nofun, rfl⟩ trivial

variable {slot : Slot α} {rest : Layout β} {P : α → Option Tree → Prop} {Q : β → List (String × Tree) → Prop} {name : String}

/-- Fields are accepted if the first of them and the others are. -/
theorem accept_field_iff {room : Nat} {ms : List (String × Tree)} (hname : name ∉ rest.fields.names) :
    (Layout.field name slot rest).fields.Accept room ms ↔
      (∀ t ∈ ms.lookup name, slot.shape.problem? room t = none) ∧ rest.fields.Accept room ms := by
  constructor
  · intro h
    exact ⟨h name _ reading?_self, fun k read hread => h k read (reading?_of_rest hname hread)⟩
  · rintro ⟨hslot, hrest⟩ k read hread
    rw [Layout.field, Fields.reading?] at hread
    split at hread
    · rename_i hk
      cases hread
      exact hk ▸ hslot
    · exact hrest k read hread

/-- Members denote the value of the first field and the values of the others, each by what stands under its name. -/
theorem field {n' : Nat} (hname : name ∉ rest.fields.names) (hslot : slot.Denotes P n) (hrest : rest.Denotes Q n') :
    (Layout.field name slot rest).Denotes (fun x ms => P x.1 (ms.lookup name) ∧ Q x.2 ms) (max n n') where
  nodup := List.nodup_cons.mpr ⟨hname, hrest.nodup⟩
  value_congr {ms ms'} hms := by
    have hrest' := hrest.value_congr fun k hk => hms k (List.mem_cons_of_mem _ hk)
    simp only [Layout.field, hms name List.mem_cons_self, hrest']
  reads {room ms x} hroom := by
    obtain ⟨a, b⟩ := x
    have hroom' : n ≤ room ∧ n' ≤ room := Nat.max_le.mp hroom
    rw [accept_field_iff hname, ← hslot.reads hroom'.1, ← hrest.reads hroom'.2]
    simp only [Layout.field, Prod.mk.injEq]
    exact and_and_and_comm

end Layout.Denotes

/-! ## Values -/

namespace Codec.Denotes

variable {c : Codec α} {P : α → Tree → Prop}

/-- A text is denoted by its spellings. -/
theorem string : Codec.string.Denotes (fun s t => t.Spells (.string s)) 0 where
  reads {room t s} _ := by
    constructor
    · rintro ⟨hfits, rfl⟩
      obtain ⟨ps, s, rfl, hs⟩ := Shape.string_eq_none_iff.mp hfits
      have hvalue : Codec.string.value (.string ps) = s := Tree.spelled_of_text hs
      rw [hvalue]
      exact .string hs
    · rintro ⟨⟩
      rename_i ps hs
      exact ⟨Shape.string_eq_none_iff.mpr ⟨ps, s, rfl, hs⟩, Tree.spelled_of_text hs⟩

/-- A truth value is denoted by its name. -/
theorem bool : Codec.bool.Denotes (fun b t => t.Spells (.bool b)) 0 where
  reads {room t b} _ := by
    constructor
    · rintro ⟨hfits, rfl⟩
      obtain ⟨b, rfl⟩ := Shape.bool_eq_none_iff.mp hfits
      exact .bool b
    · rintro ⟨⟩
      exact ⟨Shape.bool_eq_none_iff.mpr ⟨b, rfl⟩, rfl⟩

/-- A text that is checked is read as what it stands for. -/
theorem checked {P : α → String → Prop} {check : String → Option String} (hshape : c.shape = .checked check)
    (hcheck : ∀ s, check s = none ↔ ∃ a, P a s) (hvalue : ∀ ps a, P a (Tree.spelled ps) → c.value (.string ps) = a) :
    c.Denotes (Worded P) 0 where
  reads {room t a} _ := by
    have hvalue' : ∀ {s a}, t.Spells (.string s) → P a s → c.value t = a := by
      intro s a hs ha
      obtain ⟨ps, rfl, htext⟩ := Tree.spells_string_iff.mp hs
      exact hvalue ps a (by rwa [Tree.spelled_of_text htext])
    rw [hshape, Shape.checked_eq_none_iff]
    constructor
    · rintro ⟨⟨s, hs, hfits⟩, rfl⟩
      obtain ⟨a, ha⟩ := (hcheck s).mp hfits
      rw [hvalue' hs ha]
      exact ⟨s, hs, ha⟩
    · rintro ⟨s, hs, ha⟩
      exact ⟨⟨s, hs, (hcheck s).mpr ⟨a, ha⟩⟩, hvalue' hs ha⟩

/-- A value that is written as a text comes back if the text denotes it. -/
theorem restores (h : c.Denotes P 0) {a : α} {s : String} (hwrite : c.write a = .string s) (hs : P a (Json.string s).toTree) :
    c.Restores a where
  integral := hwrite ▸ trivial
  present := hwrite ▸ nofun
  accepted room _ := by
    rw [hwrite]
    exact ((h.reads (Nat.zero_le room)).mpr hs).1
  value := by
    rw [hwrite]
    exact ((h.reads le_rfl).mpr hs).2

/-- A group is read from what a document gives for its fields, by name or by position. -/
theorem settings {title : String} {layout : Layout τ} {make : τ → α} {parts : α → τ} {Q : τ → List (String × Tree) → Prop}
    {R : α → List (String × Tree) → Prop} (h : layout.Denotes Q n) (hmake : ∀ a, make (parts a) = a)
    (hparts : ∀ x, parts (make x) = x) (hR : ∀ a given, Q (parts a) given ↔ R a given) :
    (Codec.settings title layout make parts).Denotes
      (fun a t => ∃ given, t.Gives layout.fields.names given ∧ R a given) (n + 1) where
  reads {room t a} hroom := by
    have hvalue : ∀ given, t.Gives layout.fields.names given →
        (Codec.settings title layout make parts).value t = make (layout.value given) := by
      intro given hgives
      cases hgives with
      | object hcomplete hothers honce hgiven =>
        have hlookup := fun k => lookup_of_gives (.object hcomplete hothers honce hgiven) (k := k)
        exact congrArg make (h.value_congr hlookup)
      | array => rfl
    constructor
    · rintro ⟨hfits, rfl⟩
      obtain ⟨given, r, rfl, hgives, haccept⟩ := (Shape.settings_eq_none_iff h.nodup).mp hfits
      refine ⟨given, hgives, (hR _ _).mp ?_⟩
      rw [hvalue given hgives, hparts]
      exact (h.reads (Nat.le_of_succ_le_succ hroom)).mp ⟨haccept, rfl⟩
    · rintro ⟨given, hgives, hR'⟩
      obtain ⟨r, rfl⟩ := Nat.exists_eq_add_one.mpr (Nat.zero_lt_of_lt hroom)
      obtain ⟨haccept, hx⟩ := (h.reads (Nat.le_of_succ_le_succ hroom)).mpr ((hR _ _).mpr hR')
      exact ⟨(Shape.settings_eq_none_iff h.nodup).mpr ⟨given, r, rfl, hgives, haccept⟩, by rw [hvalue given hgives, hx, hmake]⟩

/-- A text is read as a value exactly if it is a tree that denotes the value. -/
theorem read_eq_ok_iff (h : c.Denotes P n) (hn : n ≤ maxDepth) {text : String} {a : α} :
    c.read text = .ok a ↔ ∃ t, t.ScannedFrom text ∧ P a t := by
  rw [Codec.read_eq_ok_iff]
  constructor
  · rintro ⟨hfits, hclosed, hvalue⟩
    exact ⟨_, ⟨_, rfl, hclosed⟩, (h.reads hn).mp ⟨hfits, hvalue⟩⟩
  · rintro ⟨t, ⟨rest, hscan, hclosed⟩, hP⟩
    obtain ⟨hfits, hvalue⟩ := (h.reads hn).mpr hP
    rw [hscan]
    exact ⟨hfits, hclosed, hvalue⟩

/-- A text that is a tree is read as a value exactly if the tree denotes the value. -/
theorem read_scanned_iff (h : c.Denotes P n) (hn : n ≤ maxDepth) {text : String} {t : Tree} {a : α} (ht : t.ScannedFrom text) :
    c.read text = .ok a ↔ P a t := by
  rw [h.read_eq_ok_iff hn]
  constructor
  · rintro ⟨t', ht', hP⟩
    rwa [ht.unique ht']
  · intro hP
    exact ⟨t, ht, hP⟩

end Codec.Denotes

end WorkflowAugment

import WorkflowAugment.Proofs.Json.Places
import WorkflowAugment.Proofs.Json.Tidying

/-!
# Numbers of a document that is read and written

A codec keeps numbers if each number of a tree that it reads stands at the same place of what it writes for what it has read. It
need not stand there with the same digits, but as the number is written that its literal stands for. The law is lifted through
the ways to build codecs, slots and layouts; a member that is left out when there is nothing in it has no numbers to lose.
-/

namespace WorkflowAugment

/-! ## Numbers at their places -/

namespace Tree

/-- Each number of the first tree stands at the same place of the second as it is written. A tree that is not there has no
numbers. -/
def KeptIn (t? u? : Option Tree) : Prop :=
  ∀ (p : Place) (n : Numeral), (t?.bind fun t => t.at? p) = some (.number n) →
    ∃ v, n.number? = some v ∧ (u?.bind fun u => u.at? p) = some (Json.number v).toTree

variable {t u : Tree} {t? u? : Option Tree}

theorem keptIn_none (u? : Option Tree) : KeptIn none u? := fun _ _ hn => nomatch hn

/-- Numbers are kept if they are kept one step inside. -/
theorem keptIn_of_child? (hnumber : ∀ n, t ≠ .number n) (h : ∀ s, KeptIn (t.child? s) (u?.bind (·.child? s))) :
    KeptIn (some t) u? := by
  intro p n hn
  cases p with
  | nil => exact absurd (Option.some.inj hn) (hnumber n)
  | cons s p =>
    obtain ⟨v, hv, hu⟩ := h s p n hn
    refine ⟨v, hv, ?_⟩
    cases u? with
    | none => cases hu
    | some u => exact hu

/-- Where there is nothing inside there are no numbers. -/
theorem keptIn_of_leaf (hnumber : ∀ n, t ≠ .number n) (hchild : ∀ s, t.child? s = none) (u? : Option Tree) :
    KeptIn (some t) u? :=
  keptIn_of_child? hnumber fun s => hchild s ▸ keptIn_none _

/-- The numbers of a value are kept in what is written for it. -/
theorem Valid.keptIn (h : t.Valid) : KeptIn (some t) (some t.toJson.toTree) := by
  intro p n hn
  rw [Option.bind_some] at hn ⊢
  obtain ⟨v, hv⟩ := (h.of_at? hn).exists_number?
  refine ⟨v, hv, ?_⟩
  rw [at?_toTree_toJson, hn, Option.map_some, toJson, hv]
  rfl

/-- An empty value is written as an empty array or an empty object. -/
theorem toTree_of_isVoid {x : Json} (h : x.isVoid) : x.toTree = .array .close ∨ x.toTree = .object .close := by
  unfold Json.isVoid at h
  split at h
  · exact .inl (by rw [Json.toTree, Json.toItems])
  · exact .inr (by rw [Json.toTree, Json.toMembers])
  · cases h

/-- What is kept in something empty has no numbers. -/
theorem KeptIn.of_isVoid {x : Json} (h : KeptIn t? (some x.toTree)) (hx : x.isVoid) (u? : Option Tree) : KeptIn t? u? := by
  intro p n hn
  obtain ⟨v, -, hv⟩ := h p n hn
  obtain ⟨m, hm⟩ := exists_toTree_number v
  rw [hm, Option.bind_some] at hv
  rcases toTree_of_isVoid hx with hempty | hempty
  all_goals
    rw [hempty] at hv
    cases p with
    | nil => cases hv
    | cons s p => cases s <;> cases hv

end Tree

/-! ## The law -/

variable {α β τ : Type}

/-- The numbers of a tree that is read are kept in what is written for what was read. -/
structure Codec.KeepsNumbers (c : Codec α) : Prop where
  kept : ∀ (t : Tree) room, c.shape.problem? room t = none →
    Tree.KeptIn (some t) (some (c.write (c.value t)).toTree)

/-- The numbers of a member are kept in what is written for it, if anything is. -/
structure Slot.KeepsNumbers (s : Slot α) : Prop where
  kept : ∀ (t? : Option Tree) room, (∀ t ∈ t?, s.shape.problem? room t = none) →
    Tree.KeptIn t? ((s.write (s.value t?)).map Json.toTree)

/-- The numbers of each named member are kept in what is written under its name. -/
structure Layout.KeepsNumbers (l : Layout τ) : Prop where
  lawful : l.Lawful
  kept : ∀ (ms : List (String × Tree)) room,
    (∀ n t, ms.lookup n = some t → ∀ read, l.fields.reading? room n = some read → read t = none) →
    ∀ n ∈ l.fields.names, Tree.KeptIn (ms.lookup n) (((l.write (l.value ms)).lookup n).map Json.toTree)

/-! ## Members -/

namespace Slot.KeepsNumbers

variable {c : Codec α}

/-- The numbers of a member that has to be there are kept as its type keeps them. -/
theorem required (h : c.KeepsNumbers) : (Slot.required c).KeepsNumbers where
  kept t? room ht := by
    cases t? with
    | none => exact Tree.keptIn_none _
    | some t => exact h.kept t room (ht t rfl)

/-- The numbers of a member that may be left out are kept as its type keeps them, and null has none. -/
theorem optional (h : c.KeepsNumbers) : (Slot.optional c).KeepsNumbers where
  kept t? room ht := by
    cases t? with
    | none => exact Tree.keptIn_none _
    | some t =>
      by_cases hnull : t = .null
      · rw [hnull]
        exact Tree.keptIn_of_leaf (by simp) (fun s => by cases s <;> rfl) _
      · rw [Slot.optional_value_of_ne hnull]
        exact h.kept t room ((Shape.nullable_eq_none_iff.mp (ht t rfl)).resolve_left hnull)

/-- A member with a default that is left out only if there is nothing in what is written. -/
theorem default (h : c.KeepsNumbers) {fallback : α} {omitted : α → Bool}
    (homitted : ∀ a, omitted a → (c.write a).isVoid) : (Slot.default c fallback omitted).KeepsNumbers where
  kept t? room ht := by
    cases t? with
    | none => exact Tree.keptIn_none _
    | some t =>
      have hkept := h.kept t room (ht t rfl)
      simp only [Slot.default]
      split
      · next hom => exact hkept.of_isVoid (homitted _ hom) _
      · exact hkept

end Slot.KeepsNumbers

namespace Layout.KeepsNumbers

/-- Without named members there is nothing to keep. -/
theorem done : Layout.done.KeepsNumbers where
  lawful := lawful_done
  kept _ _ _ _ hn := nomatch hn

variable {slot : Slot α} {rest : Layout β} {name : String}

/-- The members keep their numbers if the first does and the others do. -/
theorem field (hname : name ∉ rest.fields.names) (hslot : slot.KeepsNumbers) (hrest : rest.KeepsNumbers) :
    (Layout.field name slot rest).KeepsNumbers where
  lawful := hrest.lawful.field hname
  kept ms room hms n hn := by
    by_cases heq : n = name
    · rw [heq, lookup_write_self hrest.lawful hname]
      exact hslot.kept _ room fun t ht => hms name t ht _ reading?_self
    · rw [lookup_write_of_ne heq]
      refine hrest.kept ms room (fun n t ht read hread => ?_) n ((List.mem_cons.mp hn).resolve_left heq)
      exact hms n t ht read (reading?_of_rest hname hread)

end Layout.KeepsNumbers

/-- The name of a field is met once, so the first member of that name is the last. -/
theorem Fields.Fit.lastNamed_eq {fields : Fields} {room : Nat} {members : Members} (h : fields.Fit room members) {n : String}
    (hn : n ∈ fields.names) : lastNamed n members.toList = members.toList.lookup n := by
  have honce := h.once
  rw [Members.names, List.filter_map] at honce
  have hlast := lastNamed_eq_lookup honce n
  simpa [Function.comp_def, lastNamed_filter (· ∈ fields.names), lookup_filter (· ∈ fields.names), hn] using hlast

/-! ## Values -/

namespace Codec.KeepsNumbers

/-- A text has no numbers. -/
theorem string : Codec.string.KeepsNumbers where
  kept t room hfits := by
    obtain ⟨ps, s, rfl, -⟩ := Shape.string_eq_none_iff.mp hfits
    exact Tree.keptIn_of_leaf (by simp) (fun s => by cases s <;> rfl) _

/-- A truth value has no numbers. -/
theorem bool : Codec.bool.KeepsNumbers where
  kept t room hfits := by
    obtain ⟨b, rfl⟩ := Shape.bool_eq_none_iff.mp hfits
    exact Tree.keptIn_of_leaf (by simp) (fun s => by cases s <;> rfl) _

variable {c : Codec α}

/-- The numbers of a list are kept at the positions of its elements. -/
theorem list (h : c.KeepsNumbers) : (Codec.list c).KeepsNumbers where
  kept t room hfits := by
    obtain ⟨items, r, rfl, rfl, -, hitems⟩ := Shape.list_eq_none_iff.mp hfits
    refine Tree.keptIn_of_child? (by simp) fun s => ?_
    have hwrite : ((Codec.list c).write ((Codec.list c).value (.array items))).toTree =
        .array (Json.toItems (items.toList.map fun t => c.write (c.value t))) := by
      simp [Codec.list, Json.toTree, Function.comp_def]
    rw [hwrite, Option.bind_some]
    cases s with
    | member name => exact Tree.keptIn_none _
    | item i =>
      rw [Tree.child?_item_array, Tree.child?_item_array, Json.toList_toItems, List.map_map, List.getElem?_map]
      cases hi : items.toList[i]? with
      | none => exact Tree.keptIn_none _
      | some t => exact h.kept t r (hitems t (List.mem_of_getElem? hi))

/-- The numbers of a dictionary are kept under their keys. -/
theorem dictionary (h : c.KeepsNumbers) : (Codec.dictionary c).KeepsNumbers where
  kept t room hfits := by
    obtain ⟨members, r, rfl, rfl, -, hmembers⟩ := Shape.dictionary_eq_none_iff.mp hfits
    refine Tree.keptIn_of_child? (by simp) fun s => ?_
    have hwrite : ((Codec.dictionary c).write ((Codec.dictionary c).value (.object members))).toTree =
        .object (Json.toMembers ((Dict.ofList (members.toList.map fun m => (m.1, c.value m.2))).entries.map
          fun e => (e.1, c.write e.2))) := by
      simp only [Codec.dictionary, Json.toTree]
    rw [hwrite, Option.bind_some]
    cases s with
    | item i => exact Tree.keptIn_none _
    | member k =>
      rw [Tree.child?_member_object, Tree.child?_member_object, Json.toList_toMembers, lastNamed_map, lastNamed_map,
        lastNamed_eq_lookup (Dict.nodup_keys _), ← Dict.get?_eq_lookup, Dict.get?_ofList, lastNamed_map]
      cases hk : lastNamed k members.toList with
      | none => exact Tree.keptIn_none _
      | some t => exact h.kept t r (hmembers (k, t) (mem_of_lastNamed hk))

/-- The numbers of an object are kept under its named members, and as they are under all other names. -/
theorem record {title : String} {layout : Layout τ} {make : τ → Extra → α} {parts : α → τ × Extra}
    (hlayout : layout.KeepsNumbers) (hparts : ∀ x extra, parts (make x extra) = (x, extra)) :
    (Codec.record title layout make parts).KeepsNumbers where
  kept t room hfits := by
    obtain ⟨members, r, rfl, rfl, hfit⟩ := Shape.record_eq_none_iff.mp hfits
    refine Tree.keptIn_of_child? (by simp) fun s => ?_
    have hwrite : ((Codec.record title layout make parts).write
        ((Codec.record title layout make parts).value (.object members))).toTree =
        .object (Json.toMembers (layout.write (layout.value members.toList) ++
          (Extra.ofMembers layout.fields.names members.toList).entries)) := by
      simp only [Codec.record, hparts, Json.toTree]
    rw [hwrite, Option.bind_some]
    cases s with
    | item i => exact Tree.keptIn_none _
    | member k =>
      rw [Tree.child?_member_object, Tree.child?_member_object, Json.toList_toMembers, lastNamed_map,
        lastNamed_eq_lookup (hlayout.lawful.nodup_members _ _), hlayout.lawful.lookup_members]
      -- A name of a field is written by its slot; the value of any other member is kept as it is.
      by_cases hk : k ∈ layout.fields.names
      · rw [if_pos hk, hfit.lastNamed_eq hk]
        exact hlayout.kept _ r (fun n t ht => hfit.named (n, t) (mem_of_lookup ht)) k hk
      · rw [if_neg hk]
        cases hmember : lastNamed k members.toList with
        | none => exact Tree.keptIn_none _
        | some t => exact Tree.Valid.keptIn ⟨r, hfit.other (k, t) (mem_of_lastNamed hmember) hk⟩

end Codec.KeepsNumbers

end WorkflowAugment

import WorkflowAugment.Proofs.Json.Scanning
import WorkflowAugment.Proofs.Json.Shapes

/-!
# Reading what was written

A codec restores a value if the document written for it has the codec's shape, unless it is nested too deep, and stands for
the value again. The law is about one value at a time, since not every value of a type comes back: a record must not keep a
member under the name of one of its fields. It is lifted through the ways to build codecs, slots and layouts, and what it
says of trees it says of texts (`Codec.Restores.read_written`).
-/

namespace WorkflowAugment

/-! ## Documents as they are written -/

namespace Json

/-- The values of a written array are the written values. -/
theorem toList_toItems (xs : List Json) : (toItems xs).toList = xs.map toTree := by
  induction xs with
  | nil => rw [toItems, Items.toList, List.map_nil]; simp
  | cons x xs ih => rw [toItems, Items.toList, ih, List.map_cons]

/-- The members of a written object are the written members. -/
theorem toList_toMembers (ms : List (String × Json)) : (toMembers ms).toList = ms.map fun m => (m.1, m.2.toTree) := by
  induction ms with
  | nil => rw [toMembers, Members.toList, List.map_nil]; simp
  | cons m ms ih => rw [toMembers, Members.toList, ih, List.map_cons, Tree.spelled_ofString]

/-- The names in a written object are the names of its members. -/
theorem names_toMembers (ms : List (String × Json)) : (toMembers ms).names = ms.map (·.1) := by
  rw [Members.names, toList_toMembers, List.map_map]
  rfl

/-- A written array is closed. -/
theorem complete_toItems (xs : List Json) : (toItems xs).Complete := by
  induction xs with
  | nil => rw [toItems]; trivial
  | cons x xs ih => rw [toItems]; exact ih

/-- A written object is closed, and its names can be read. -/
theorem complete_toMembers (ms : List (String × Json)) : (toMembers ms).Complete := by
  induction ms with
  | nil => rw [toMembers]; trivial
  | cons m ms ih => rw [toMembers]; exact ⟨⟨m.1, Piece.text_ofString m.1⟩, ih⟩

/-- The tree of an integral value that is not null is not null. -/
theorem toTree_ne_null {x : Json} (hint : x.Integral) (hx : x ≠ .null) : x.toTree ≠ .null := by
  cases x with
  | null => exact absurd rfl hx
  | number n =>
    obtain ⟨i, h, rfl⟩ := hint
    simp
  | _ => simp [toTree]

end Json

/-! ## The law -/

variable {α β τ : Type}

/-- What is written for a value is read as the value. -/
structure Codec.Restores (c : Codec α) (a : α) : Prop where
  integral : (c.write a).Integral
  present : c.write a ≠ .null
  accepted : ∀ room, (c.write a).depth ≤ room → c.shape.problem? room (c.write a).toTree = none
  value : c.value (c.write a).toTree = a

/-- What is written for the value of a member, if anything is, is read as the value. -/
structure Slot.Restores (s : Slot α) (a : α) : Prop where
  integral : ∀ v, s.write a = some v → v.Integral
  present : s.mandatory → (s.write a).isSome
  accepted : ∀ v, s.write a = some v → ∀ room, v.depth ≤ room → s.shape.problem? room v.toTree = none
  value : s.value ((s.write a).map Json.toTree) = a

/-- What is written for the values of the named members is read as these values, whatever other members there are. -/
structure Layout.Restores (l : Layout τ) (a : τ) : Prop where
  lawful : l.Lawful
  integral : ∀ n v, (l.write a).lookup n = some v → v.Integral
  present : ∀ n ∈ l.fields.mandatory, ((l.write a).lookup n).isSome
  accepted : ∀ n v, (l.write a).lookup n = some v → ∀ room, v.depth ≤ room →
    ∀ read, l.fields.reading? room n = some read → read v.toTree = none
  value : ∀ ms : List (String × Tree), (∀ n ∈ l.fields.names, ms.lookup n = ((l.write a).lookup n).map Json.toTree) →
    l.value ms = a

/-! ## Members -/

namespace Slot.Restores

variable {c : Codec α} {a : α}

/-- The value of a member that has to be there is written, and is read as the value. -/
theorem required (h : c.Restores a) : (Slot.required c).Restores a where
  integral v hv := by
    cases hv
    exact h.integral
  present _ := rfl
  accepted v hv := by
    cases hv
    exact h.accepted
  value := h.value

/-- The value of a member that may be left out is left out if there is none, and else read as the value. -/
theorem optional {o : Option α} (h : ∀ a ∈ o, c.Restores a) : (Slot.optional c).Restores o where
  integral v hv := by
    obtain ⟨a, rfl, rfl⟩ := Option.map_eq_some_iff.mp hv
    exact (h a rfl).integral
  present hm := nomatch hm
  accepted v hv room hdepth := by
    obtain ⟨a, rfl, rfl⟩ := Option.map_eq_some_iff.mp hv
    exact Shape.nullable_eq_none_iff.mpr (.inr ((h a rfl).accepted room hdepth))
  value := by
    cases o with
    | none => rfl
    | some a =>
      have hne := Json.toTree_ne_null (h a rfl).integral (h a rfl).present
      exact (Slot.optional_value_of_ne hne).trans (congrArg some (h a rfl).value)

/-- A value with a default is left out only if it is the default. -/
theorem default {fallback : α} {omitted : α → Bool} (h : c.Restores a) (homitted : omitted a → a = fallback) :
    (Slot.default c fallback omitted).Restores a where
  integral v hv := by
    simp only [Slot.default] at hv
    split at hv
    · nomatch hv
    · cases hv
      exact h.integral
  present hm := nomatch hm
  accepted v hv := by
    simp only [Slot.default] at hv
    split at hv
    · nomatch hv
    · cases hv
      exact h.accepted
  value := by
    simp only [Slot.default]
    by_cases hom : omitted a
    · rw [if_pos hom]
      exact (homitted hom).symm
    · rw [if_neg hom]
      exact h.value

end Slot.Restores

namespace Layout.Restores

/-- Without fields nothing is written, and nothing is read. -/
theorem done : Layout.done.Restores () where
  lawful := lawful_done
  integral _ _ hv := nomatch hv
  present _ hn := nomatch hn
  accepted _ _ hv := nomatch hv
  value _ _ := rfl

variable {slot : Slot α} {rest : Layout β} {a : α} {b : β} {name : String}

/-- The values of members are restored if the first is and the others are: each is found under its own name. -/
theorem field (hname : name ∉ rest.fields.names) (hslot : slot.Restores a) (hrest : rest.Restores b) :
    (Layout.field name slot rest).Restores (a, b) where
  lawful := hrest.lawful.field hname
  integral n v hv := by
    by_cases hn : n = name
    · rw [hn, lookup_write_self hrest.lawful hname] at hv
      exact hslot.integral v hv
    · rw [lookup_write_of_ne hn] at hv
      exact hrest.integral n v hv
  present n hn := by
    by_cases heq : n = name
    · rw [heq, lookup_write_self hrest.lawful hname]
      have hmandatory : slot.mandatory := by
        by_contra hnot
        simp only [Layout.field, Fields.mandatory, hnot, if_false] at hn
        exact hname (heq ▸ Fields.mem_names_of_mandatory hn)
      exact hslot.present hmandatory
    · rw [lookup_write_of_ne heq]
      refine hrest.present n ?_
      simp only [Layout.field, Fields.mandatory] at hn
      split at hn
      · exact (List.mem_cons.mp hn).resolve_left heq
      · exact hn
  accepted n v hv room hdepth read hread := by
    simp only [Layout.field, Fields.reading?] at hread
    by_cases hn : n = name
    · rw [if_pos hn] at hread
      cases hread
      rw [hn, lookup_write_self hrest.lawful hname] at hv
      exact hslot.accepted v hv room hdepth
    · rw [if_neg hn] at hread
      rw [lookup_write_of_ne hn] at hv
      exact hrest.accepted n v hv room hdepth read hread
  value ms hms := by
    have hhead : slot.value (ms.lookup name) = a := by
      rw [hms name List.mem_cons_self, lookup_write_self hrest.lawful hname]
      exact hslot.value
    have htail : rest.value ms = b := by
      refine hrest.value ms fun n hn => ?_
      have hne : n ≠ name := fun heq => hname (heq ▸ hn)
      rw [hms n (List.mem_cons_of_mem _ hn), lookup_write_of_ne hne]
    simp only [Layout.field, hhead, htail]

/-! ### Beside members that are kept -/

variable {l : Layout τ} {x : τ} {extra : Extra}

/-- What is written fits the fields, with plain members behind it. -/
theorem fit (h : l.Restores x) (hextra : extra.Plain l.fields.names) {room : Nat}
    (hdepth : Json.depthMembers (l.write x ++ extra.entries) ≤ room) :
    l.fields.Fit room (Json.toMembers (l.write x ++ extra.entries)) := by
  have hmembers := Json.depthMembers_le_iff.mp hdepth
  have hfields : ((l.write x).map (·.1)).filter (· ∈ l.fields.names) = (l.write x).map (·.1) := by
    rw [List.filter_eq_self, List.forall_mem_map]
    exact fun m hm => decide_eq_true (h.lawful.mem_names_of_mem_write hm)
  have hothers : (extra.entries.map (·.1)).filter (· ∈ l.fields.names) = [] := by
    rw [List.filter_eq_nil_iff, List.forall_mem_map]
    exact fun e he => by simpa using (hextra e he).1
  refine ⟨Json.complete_toMembers _, ?_, ?_, ?_, ?_⟩
  · rw [Json.names_toMembers, List.map_append, List.filter_append, hfields, hothers, List.append_nil]
    exact h.lawful.nodup_write x
  · intro n hn
    rw [Json.names_toMembers, List.map_append, List.mem_append]
    exact .inl (isSome_lookup_iff.mp (h.present n hn))
  · rw [Json.toList_toMembers, List.forall_mem_map, List.forall_mem_append]
    constructor
    · intro m hm
      exact h.accepted m.1 m.2 (h.lawful.lookup_of_mem_write hm) room (hmembers m (List.mem_append_left _ hm))
    · intro e he read hread
      exact absurd (Fields.isSome_reading?_iff.mp (Option.isSome_of_eq_some hread)) (hextra e he).1
  · rw [Json.toList_toMembers, List.forall_mem_map, List.forall_mem_append]
    constructor
    · intro m hm hother
      exact absurd (h.lawful.mem_names_of_mem_write hm) hother
    · intro e he _
      exact Json.fault?_toTree e.2 (hextra e he).2 (hmembers e (List.mem_append_right _ he))

/-- What is written is read as the values, with plain members behind it. -/
theorem value_append (h : l.Restores x) (hextra : extra.Plain l.fields.names) :
    l.value ((l.write x ++ extra.entries).map fun m => (m.1, m.2.toTree)) = x := by
  refine h.value _ fun n hn => ?_
  rw [lookup_map, List.lookup_append, hextra.lookup_eq_none hn, Option.or_none]

end Layout.Restores

/-! ## Values -/

namespace Codec.Restores

/-- A text is read as what is written for it. -/
theorem string (s : String) : Codec.string.Restores s where
  integral := trivial
  present := nofun
  accepted _ _ :=
    Shape.string_eq_none_iff.mpr ⟨Piece.ofString s, s, by simp [Codec.string, Json.toTree], Piece.text_ofString s⟩
  value := by simp [Codec.string, Json.toTree]

/-- A truth value is read as what is written for it. -/
theorem bool (b : Bool) : Codec.bool.Restores b where
  integral := trivial
  present := nofun
  accepted _ _ := Shape.bool_eq_none_iff.mpr ⟨b, by simp [Codec.bool, Json.toTree]⟩
  value := by simp [Codec.bool, Json.toTree]

variable {c : Codec α}

/-- A list is restored if its elements are. -/
theorem list {xs : List α} (h : ∀ x ∈ xs, c.Restores x) : (Codec.list c).Restores xs where
  integral := by
    rw [Codec.list, Json.Integral, Json.integralItems_iff, List.forall_mem_map]
    exact fun x hx => (h x hx).integral
  present := nofun
  accepted room hdepth := by
    cases room with
    | zero => exact absurd hdepth (Nat.not_succ_le_zero _)
    | succ room =>
      have hitems := Json.depthItems_le_iff.mp (Nat.le_of_succ_le_succ hdepth)
      refine Shape.list_eq_none_iff.mpr ⟨_, room, by rw [Codec.list, Json.toTree], rfl, Json.complete_toItems _, ?_⟩
      rw [Json.toList_toItems, List.map_map, List.forall_mem_map]
      exact fun x hx => (h x hx).accepted room (hitems _ (List.mem_map_of_mem hx))
  value := by
    simp only [Codec.list, Json.toTree, Json.toList_toItems, List.map_map]
    exact (List.map_congr_left fun x hx => (h x hx).value).trans (List.map_id xs)

/-- A dictionary is restored if its values are. -/
theorem dictionary {d : Dict α} (h : ∀ e ∈ d.entries, c.Restores e.2) : (Codec.dictionary c).Restores d where
  integral := by
    rw [Codec.dictionary, Json.Integral, Json.integralMembers_iff, List.forall_mem_map]
    exact fun e he => (h e he).integral
  present := nofun
  accepted room hdepth := by
    cases room with
    | zero => exact absurd hdepth (Nat.not_succ_le_zero _)
    | succ room =>
      have hmembers := Json.depthMembers_le_iff.mp (Nat.le_of_succ_le_succ hdepth)
      refine Shape.dictionary_eq_none_iff.mpr
        ⟨_, room, by rw [Codec.dictionary, Json.toTree], rfl, Json.complete_toMembers _, ?_⟩
      rw [Json.toList_toMembers, List.map_map, List.forall_mem_map]
      exact fun e he => (h e he).accepted room (hmembers _ (List.mem_map_of_mem he))
  value := by
    have hback : (d.entries.map fun e => (e.1, c.value (c.write e.2).toTree)) = d.entries :=
      (List.map_congr_left fun e he => by rw [(h e he).value, id]).trans (List.map_id _)
    simp only [Codec.dictionary, Json.toTree, Json.toList_toMembers, List.map_map, Function.comp_def, hback,
      Dict.ofList_entries]

/-- An object is restored if its named members are, and those that are kept beside them bear other names. -/
theorem record {title : String} {layout : Layout τ} {make : τ → Extra → α} {parts : α → τ × Extra} {a : α}
    (hlayout : layout.Restores (parts a).1) (hextra : (parts a).2.Plain layout.fields.names)
    (hmake : make (parts a).1 (parts a).2 = a) : (Codec.record title layout make parts).Restores a := by
  rcases hparts : parts a with ⟨x, extra⟩
  rw [hparts] at hlayout hextra hmake
  have hwrite : (Codec.record title layout make parts).write a = .object (layout.write x ++ extra.entries) := by
    simp only [Codec.record, hparts]
  refine ⟨?_, ?_, ?_, ?_⟩
  · rw [hwrite, Json.Integral, Json.integralMembers_iff, List.forall_mem_append]
    exact ⟨fun m hm => hlayout.integral m.1 m.2 (hlayout.lawful.lookup_of_mem_write hm), fun e he => (hextra e he).2⟩
  · simp [hwrite]
  · intro room hdepth
    rw [hwrite] at hdepth ⊢
    cases room with
    | zero => exact absurd hdepth (Nat.not_succ_le_zero _)
    | succ room =>
      have hfit := hlayout.fit hextra (Nat.le_of_succ_le_succ hdepth)
      exact Shape.record_eq_none_iff.mpr ⟨_, room, by rw [Json.toTree], rfl, hfit⟩
  · rw [hwrite]
    simp only [Codec.record, Json.toTree, Json.toList_toMembers, hlayout.value_append hextra]
    rw [List.map_append, Extra.ofMembers_append _ hextra, hmake]
    intro m hm
    obtain ⟨e, he, rfl⟩ := List.mem_map.mp hm
    exact hlayout.lawful.mem_names_of_mem_write he

/-- The text of a value that comes back is read as the value. -/
theorem read_written {a : α} (h : c.Restores a) (hdepth : (c.write a).depth ≤ maxDepth) (isPretty : Bool) :
    c.read (c.text isPretty a) = .ok a := by
  rw [Codec.text, Codec.read_render (h.accepted maxDepth hdepth), h.value]

end Codec.Restores

end WorkflowAugment

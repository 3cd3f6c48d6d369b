import WorkflowAugment.Proofs.Json.Nesting

/-!
# What is read

A codec yields values of a kind if whatever it reads without a problem is of the kind, and is written again nested no deeper
than it was read, apart from a fixed depth that defaults need which are written out. The law is lifted through the ways to
build codecs, slots and layouts, as the one about values that come back.
-/

namespace WorkflowAugment

variable {α β τ : Type} {n : Nat}

/-! ## The law -/

/-- Whatever is read is of the kind `P`, and is written within the room it was read in, or within `n`. -/
structure Codec.Yields (c : Codec α) (P : α → Prop) (n : Nat) : Prop where
  read : ∀ {room t}, c.shape.problem? room t = none → t.json.Integral →
    P (c.value t) ∧ c.Within (max room n) (c.value t)

/-- The value of a member, if it is read or may be left out, is of the kind `P`, and is written within the room, or within
`n`. -/
structure Slot.Yields (s : Slot α) (P : α → Prop) (n : Nat) : Prop where
  read : ∀ {room o}, (∀ t ∈ o, s.shape.problem? room t = none ∧ t.json.Integral) → (s.mandatory → o.isSome) →
    P (s.value o) ∧ s.Within (max room n) (s.value o)

/-- The members have no problem with the fields, those that must be there are there, and all numbers are integers. -/
structure Fields.Reads (fields : Fields) (room : Nat) (ms : List (String × Tree)) : Prop where
  named : ∀ m ∈ ms, ∀ read, fields.reading? room m.1 = some read → read m.2 = none
  present : ∀ k ∈ fields.mandatory, (ms.lookup k).isSome
  integral : ∀ m ∈ ms, m.2.json.Integral

/-- The values of the named members are of the kind `P`, and are written within the room they were read in, or within
`n`. -/
structure Layout.Yields (l : Layout τ) (P : τ → Prop) (n : Nat) : Prop where
  read : ∀ {room ms}, l.fields.Reads room ms → P (l.value ms) ∧ l.Within (max room n) (l.value ms)

/-! ## Members -/

namespace Slot.Yields

variable {c : Codec α} {P : α → Prop}

/-- A member that has to be there is read as a value of the kind that its type yields. -/
theorem required (h : c.Yields P n) : (Slot.required c).Yields P n where
  read {room o} hread hpresent := by
    obtain ⟨t, rfl⟩ := Option.isSome_iff_exists.mp (hpresent rfl)
    obtain ⟨hfits, hint⟩ := hread t rfl
    rw [within_required]
    exact h.read hfits hint

/-- A member that may be left out or null is read as nothing then, and else as a value of the kind. -/
theorem optional (h : c.Yields P n) : (Slot.optional c).Yields (fun o => ∀ a ∈ o, P a) n where
  read {room o} hread _ := by
    rw [within_optional]
    cases o with
    | none => exact ⟨nofun, nofun⟩
    | some t =>
      obtain ⟨hfits, hint⟩ := hread t rfl
      by_cases hnull : t = .null
      · rw [hnull]
        exact ⟨nofun, nofun⟩
      · have hvalue := h.read ((Shape.nullable_eq_none_iff.mp hfits).resolve_left hnull) hint
        rw [optional_value_of_ne hnull]
        exact ⟨fun a ha => Option.some.inj ha ▸ hvalue.1, fun a ha => Option.some.inj ha ▸ hvalue.2⟩

/-- A default is of the kind as well, and it is left out or written within `n`. -/
theorem default {fallback : α} {omitted : α → Bool} (h : c.Yields P n) (hfallback : P fallback)
    (hwithin : omitted fallback ∨ c.Within n fallback) : (Slot.default c fallback omitted).Yields P n where
  read {room o} hread _ := by
    rw [within_default]
    cases o with
    | none => exact ⟨hfallback, hwithin.imp_right fun hw => hw.mono (Nat.le_max_right room n)⟩
    | some t =>
      obtain ⟨hfits, hint⟩ := hread t rfl
      obtain ⟨hvalue, hw⟩ := h.read hfits hint
      exact ⟨hvalue, .inr hw⟩

end Slot.Yields

namespace Layout.Yields

/-- Where nothing is read nothing is written. -/
theorem done : Layout.done.Yields (fun _ => True) 0 where
  read _ := ⟨trivial, within_done⟩

variable {slot : Slot α} {rest : Layout β} {P : α → Prop} {Q : β → Prop} {name : String}

/-- Members are of a kind if the value of the first field is and those of the others are. -/
theorem field {n' : Nat} (hname : name ∉ rest.fields.names) (hslot : slot.Yields P n) (hrest : rest.Yields Q n') :
    (Layout.field name slot rest).Yields (fun x => P x.1 ∧ Q x.2) (max n n') where
  read {room ms} hreads := by
    have hhead : ∀ t ∈ ms.lookup name, slot.shape.problem? room t = none ∧ t.json.Integral := by
      intro t ht
      have hmem := mem_of_lookup ht
      exact ⟨hreads.named _ hmem _ reading?_self, hreads.integral _ hmem⟩
    have hpresent : slot.mandatory → (ms.lookup name).isSome :=
      fun hmandatory => hreads.present name (mem_mandatory_self hmandatory)
    have htail : rest.fields.Reads room ms := by
      refine ⟨fun m hm read hread => ?_, fun k hk => ?_, hreads.integral⟩
      · exact hreads.named m hm read (reading?_of_rest hname hread)
      · exact hreads.present k (mem_mandatory_of_rest hk)
    obtain ⟨hP, hslotWithin⟩ := hslot.read hhead hpresent
    obtain ⟨hQ, hrestWithin⟩ := hrest.read htail
    exact ⟨⟨hP, hQ⟩, within_field.mpr ⟨hslotWithin.mono (by omega), hrestWithin.mono (by omega)⟩⟩

end Layout.Yields

/-- Members that fit the fields, with integers for numbers, are read as these. -/
theorem Fields.Fit.reads {fields : Fields} {room : Nat} {members : Members} (h : fields.Fit room members)
    (hint : ∀ m ∈ members.toList, m.2.json.Integral) : fields.Reads room members.toList where
  named := h.named
  present k hk := isSome_lookup_iff.mpr (h.present k hk)
  integral := hint

/-! ## Values -/

namespace Codec.Yields

/-- A text is written without any nesting. -/
theorem string : Codec.string.Yields (fun _ => True) 0 where
  read _ _ := ⟨trivial, within_string⟩

/-- A truth value is written without any nesting. -/
theorem bool : Codec.bool.Yields (fun _ => True) 0 where
  read _ _ := ⟨trivial, within_bool⟩

variable {c : Codec α} {P : α → Prop}

/-- A list is of elements of the kind, and one level above them. -/
theorem list (h : c.Yields P n) : (Codec.list c).Yields (fun xs => ∀ x ∈ xs, P x) (n + 1) where
  read {room t} hfits hint := by
    obtain ⟨items, r, rfl, rfl, -, hitems⟩ := Shape.list_eq_none_iff.mp hfits
    rw [Tree.json, Json.Integral, Json.integralItems_iff, Items.jsons_eq, List.forall_mem_map] at hint
    have hread := fun t ht => h.read (hitems t ht) (hint t ht)
    rw [Nat.add_max_add_right, within_list]
    simp only [Codec.list, List.forall_mem_map]
    exact ⟨fun t ht => (hread t ht).1, fun t ht => (hread t ht).2⟩

/-- A dictionary is of values of the kind, and one level above them. -/
theorem dictionary (h : c.Yields P n) : (Codec.dictionary c).Yields (fun d => ∀ e ∈ d.entries, P e.2) (n + 1) where
  read {room t} hfits hint := by
    obtain ⟨members, r, rfl, rfl, -, hmembers⟩ := Shape.dictionary_eq_none_iff.mp hfits
    rw [Tree.json, Json.Integral, Json.integralMembers_iff, Members.jsons_eq, List.forall_mem_map] at hint
    have hread := fun m hm => h.read (hmembers m hm) (hint m hm)
    have hentries : ∀ e ∈ ((Codec.dictionary c).value (.object members)).entries,
        P e.2 ∧ c.Within (max r n) e.2 := by
      intro e he
      obtain ⟨m, hm, rfl⟩ := List.mem_map.mp (Dict.mem_of_mem_ofList he)
      exact hread m hm
    rw [Nat.add_max_add_right, within_dictionary]
    exact ⟨fun e he => (hentries e he).1, fun e he => (hentries e he).2⟩

/-- What a record yields is made of what its layout yields and of plain members. -/
theorem record {title : String} {layout : Layout τ} {make : τ → Extra → α} {parts : α → τ × Extra} {Q : τ → Prop}
    (hlayout : layout.Yields Q n) (hmake : ∀ x extra, Q x → extra.Plain layout.fields.names → P (make x extra))
    (hparts : ∀ x extra, parts (make x extra) = (x, extra)) :
    (Codec.record title layout make parts).Yields P (n + 1) where
  read {room t} hfits hint := by
    obtain ⟨members, r, rfl, rfl, hfit⟩ := Shape.record_eq_none_iff.mp hfits
    rw [Tree.json, Json.Integral, Json.integralMembers_iff, Members.jsons_eq, List.forall_mem_map] at hint
    obtain ⟨hQ, hwithin⟩ := hlayout.read (hfit.reads hint)
    have hplain : (Extra.ofMembers layout.fields.names members.toList).Plain layout.fields.names := by
      intro e he
      obtain ⟨hother, m, hm, rfl⟩ := Extra.mem_of_mem_ofMembers he
      exact ⟨hother, m.2.integral_toJson (hint m hm)⟩
    have hkept : (Extra.ofMembers layout.fields.names members.toList).Within (max r n) := by
      intro e he
      obtain ⟨hother, m, hm, rfl⟩ := Extra.mem_of_mem_ofMembers he
      exact Nat.le_trans (m.2.depth_toJson_le (hfit.other m hm hother)) (Nat.le_max_left r n)
    rw [Nat.add_max_add_right, within_record]
    simp only [Codec.record, hparts]
    exact ⟨hmake _ _ hQ hplain, hwithin, hkept⟩

end Codec.Yields

end WorkflowAugment

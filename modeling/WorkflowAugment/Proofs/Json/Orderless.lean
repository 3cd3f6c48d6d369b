import WorkflowAugment.Proofs.Json.Permuting

/-!
# Reading whatever the order of members

A codec is orderless if it reads permuted trees alike: both have its shape or neither has, and they stand for one value. Which
problem is met first does depend on the order, so the law is silent about it. It is lifted through the ways to build codecs,
slots and layouts, as the laws about what is read and about what comes back, and what it says of trees it says of texts
(`Codec.Orderless.read_eq_ok_iff`).
-/

namespace WorkflowAugment

variable {α β τ : Type}

/-! ## The law -/

/-- Permuted trees have the shape both or neither, and they stand for the same value. -/
structure Codec.Orderless (c : Codec α) : Prop where
  accepted : ∀ {t t' : Tree}, t.Permuted t' → ∀ room, c.shape.problem? room t = none ↔ c.shape.problem? room t' = none
  value : ∀ {t t' : Tree}, t.Permuted t' → c.value t = c.value t'

/-- Permuted values of a member have the shape both or neither, and they, or the absence of both, stand for the same value. -/
structure Slot.Orderless (s : Slot α) : Prop where
  accepted : ∀ {t t' : Tree}, t.Permuted t' → ∀ room, s.shape.problem? room t = none ↔ s.shape.problem? room t' = none
  value : ∀ {o o' : Option Tree}, Option.Rel Tree.Permuted o o' → s.value o = s.value o'

/-- Permuted trees can be read as a field both or neither, and members with permuted values under the same names stand for the
same values. -/
structure Layout.Orderless (l : Layout τ) : Prop where
  accepted : ∀ {t t' : Tree}, t.Permuted t' → ∀ room k read, l.fields.reading? room k = some read →
    (read t = none ↔ read t' = none)
  value : ∀ {ms ms' : List (String × Tree)}, (∀ k, Option.Rel Tree.Permuted (ms.lookup k) (ms'.lookup k)) →
    l.value ms = l.value ms'

/-! ## Members -/

/-- A tree is null if one that it is permuted to is. -/
theorem Tree.Permuted.eq_null_iff {t t' : Tree} (h : t.Permuted t') : t = .null ↔ t' = .null := by
  cases h.layer <;> simp

namespace Slot.Orderless

variable {c : Codec α}

/-- A member that has to be there depends on the order of members no more than its type does. -/
theorem required (h : c.Orderless) : (Slot.required c).Orderless where
  accepted := h.accepted
  value ho := by
    cases ho with
    | none => rfl
    | some ht => exact h.value ht

/-- A member that may be left out or null depends on the order of members no more than its type does. -/
theorem optional (h : c.Orderless) : (Slot.optional c).Orderless where
  accepted ht room := by
    rw [Slot.optional, Shape.nullable_eq_none_iff, Shape.nullable_eq_none_iff]
    exact or_congr ht.eq_null_iff (h.accepted ht room)
  value ho := by
    cases ho with
    | none => rfl
    | @some t t' ht =>
      by_cases hnull : t = .null
      · rw [hnull, ht.eq_null_iff.mp hnull]
      · rw [optional_value_of_ne hnull, optional_value_of_ne (mt ht.eq_null_iff.mpr hnull), h.value ht]

/-- A member with a default depends on the order of members no more than its type does. -/
theorem default (h : c.Orderless) (fallback : α) (omitted : α → Bool) : (Slot.default c fallback omitted).Orderless where
  accepted := h.accepted
  value ho := by
    cases ho with
    | none => rfl
    | some ht => exact h.value ht

end Slot.Orderless

namespace Layout.Orderless

/-- Where there are no named members, no order matters. -/
theorem done : Layout.done.Orderless where
  accepted _ _ _ _ hread := nomatch hread
  value _ := rfl

variable {slot : Slot α} {rest : Layout β} {name : String}

/-- No order matters to members if none matters to the first and none to the others. -/
theorem field (hslot : slot.Orderless) (hrest : rest.Orderless) : (Layout.field name slot rest).Orderless where
  accepted ht room k read hread := by
    rw [Layout.field, Fields.reading?] at hread
    split at hread
    · cases hread
      exact hslot.accepted ht room
    · exact hrest.accepted ht room k read hread
  value hms := congrArg₂ Prod.mk (hslot.value (hms name)) (hrest.value hms)

end Layout.Orderless

/-- Permuted members fit the fields both or neither. -/
theorem Layout.Orderless.fit_iff {l : Layout τ} (h : l.Orderless) {members members' : Members}
    (hmembers : members.Matched Tree.Permuted members') {room : Nat} :
    l.fields.Fit room members ↔ l.fields.Fit room members' := by
  have hpresent : (∀ n ∈ l.fields.mandatory, n ∈ members.names) ↔ ∀ n ∈ l.fields.mandatory, n ∈ members'.names :=
    forall₂_congr fun n _ => hmembers.mem_names_iff
  have hnamed : (∀ m ∈ members.toList, ∀ read, l.fields.reading? room m.1 = some read → read m.2 = none) ↔
      ∀ m ∈ members'.toList, ∀ read, l.fields.reading? room m.1 = some read → read m.2 = none :=
    hmembers.forall_mem_iff fun k t t' ht => forall₂_congr fun read hread => h.accepted ht room k read hread
  have hfault : ∀ (k : String) (t t' : Tree), t.Permuted t' →
      ((k ∉ l.fields.names → t.fault? room = none) ↔ (k ∉ l.fields.names → t'.fault? room = none)) :=
    fun k t t' ht => imp_congr_right fun _ => ht.alike.fault?_eq_none_iff room
  have hother := hmembers.forall_mem_iff hfault
  constructor
  · exact fun hfit => ⟨hmembers.complete', hmembers.nodup'.filter _, hpresent.mp hfit.present, hnamed.mp hfit.named,
      hother.mp hfit.other⟩
  · exact fun hfit => ⟨hmembers.complete, hmembers.nodup.filter _, hpresent.mpr hfit.present, hnamed.mpr hfit.named,
      hother.mpr hfit.other⟩

/-- Of permuted members the same is kept. -/
theorem Extra.ofMembers_eq {members members' : Members} (h : members.Matched Tree.Permuted members') (named : List String) :
    ofMembers named members.toList = ofMembers named members'.toList := by
  refine Extra.ext (Dict.ext_get? fun k => ?_)
  rw [get?_ofMembers, get?_ofMembers, lastNamed_eq_lookup h.nodup, lastNamed_eq_lookup h.nodup',
    map_eq_of_rel (h.related k) fun _ _ ht => ht.alike.toJson_eq]

/-! ## Values -/

namespace Codec.Orderless

/-- There is no order in a text. -/
theorem string : Codec.string.Orderless where
  accepted ht room := by
    rw [Codec.string, Shape.string_eq_none_iff, Shape.string_eq_none_iff]
    cases ht.layer with
    | string hs hs' => simp [hs, hs']
    | _ => simp
  value ht := by
    cases ht.layer with
    | string hs hs' => exact (Tree.spelled_of_text hs).trans (Tree.spelled_of_text hs').symm
    | _ => rfl

/-- There is no order in a truth value. -/
theorem bool : Codec.bool.Orderless where
  accepted ht room := by
    rw [Codec.bool, Shape.bool_eq_none_iff, Shape.bool_eq_none_iff]
    cases ht.layer <;> simp
  value ht := by cases ht.layer <;> rfl

variable {c : Codec α}

/-- No order of members matters to a list if none matters to its elements. -/
theorem list (h : c.Orderless) : (Codec.list c).Orderless where
  accepted ht room := by
    rw [Codec.list, Shape.list_eq_none_iff, Shape.list_eq_none_iff]
    cases ht.layer with
    | array hitems =>
      have hread : ∀ r, _ := fun r => hitems.forall_mem_iff fun t t' ht => h.accepted ht r
      simp [hitems.complete, hitems.complete', hread]
    | _ => simp
  value ht := by
    cases ht.layer with
    | array hitems => exact hitems.map_eq fun _ _ ht => h.value ht
    | _ => rfl

/-- The order of its own members does not matter to a dictionary, if none matters to their values. -/
theorem dictionary (h : c.Orderless) : (Codec.dictionary c).Orderless where
  accepted ht room := by
    rw [Codec.dictionary, Shape.dictionary_eq_none_iff, Shape.dictionary_eq_none_iff]
    cases ht.layer with
    | object hmembers =>
      have hread : ∀ r, _ := fun r => hmembers.forall_mem_iff fun k t t' ht => h.accepted ht r
      simp [hmembers.complete, hmembers.complete', hread, -Prod.forall]
    | _ => simp
  value ht := by
    cases ht.layer with
    | object hmembers => exact hmembers.ofList_eq fun _ _ ht => h.value ht
    | _ => rfl

/-- The order of its members does not matter to an object, if none matters to their values. -/
theorem record {title : String} {layout : Layout τ} {make : τ → Extra → α} {parts : α → τ × Extra}
    (h : layout.Orderless) : (Codec.record title layout make parts).Orderless where
  accepted ht room := by
    rw [Codec.record, Shape.record_eq_none_iff, Shape.record_eq_none_iff]
    cases ht.layer with
    | object hmembers => simp [h.fit_iff hmembers]
    | _ => simp
  value ht := by
    cases ht.layer with
    | object hmembers => exact congrArg₂ make (h.value hmembers.related) (Extra.ofMembers_eq hmembers _)
    | _ => rfl

end Codec.Orderless

/-! ## Texts -/

/-- The text is one value, nested to any depth, with nothing but white space behind it, and spells `x`. -/
structure Json.SpelledBy (x : Json) (text : String) : Prop where
  valid : (Tree.scan text.toList).1.Valid
  closed : Tree.skipSpace (Tree.scan text.toList).2 = []
  value : Json.ofText text = x

/-- A value whose numbers are integers is spelled by both its texts. -/
theorem Json.spelledBy_render {x : Json} (hint : x.Integral) (isPretty : Bool) : x.SpelledBy (x.render isPretty) where
  valid := by
    rw [scan_render]
    exact ⟨x.depth, fault?_toTree x hint (Nat.le_refl _)⟩
  closed := by
    rw [scan_render]
    rfl
  value := ofText_render hint isPretty

namespace Codec

variable {c : Codec α} {a : α} {x y : Json} {text text' : String}

/-- Of two texts whose values differ in the order of members only, each is read as a value if the other is. -/
theorem Orderless.read_eq_ok_iff (h : c.Orderless) (hreordered : x.Reordered y) (hdistinct : x.Distinct)
    (htext : x.SpelledBy text) (htext' : y.SpelledBy text') : c.read text = .ok a ↔ c.read text' = .ok a := by
  obtain ⟨hvalid, hclosed, rfl⟩ := htext
  obtain ⟨hvalid', hclosed', rfl⟩ := htext'
  have hpermuted : (Tree.scan text.toList).1.Permuted (Tree.scan text'.toList).1 :=
    ⟨hvalid, hvalid', hreordered, hdistinct⟩
  simp only [Codec.read_eq_ok_iff, hclosed, hclosed', h.accepted hpermuted, h.value hpermuted]

end Codec

end WorkflowAugment

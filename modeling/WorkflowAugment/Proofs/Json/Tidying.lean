import WorkflowAugment.Proofs.Json.Reordering

/-!
# Writing what was read

A document that is read and written again is not always what it was: a member that says nothing is left out, and one that is
always written is added. A `Rule` says what becomes of the member of one name, and `Json.tidyObject` applies a table of rules
to an object. A codec tidies if what it writes for a tree is the tidied tree, up to the order of members; the law is lifted
through the ways to build codecs, slots and layouts.
-/

namespace WorkflowAugment

/-! ## Rules -/

/-- The value is an array or an object with nothing in it. -/
def Json.isVoid : Json → Bool
  | .array [] => true
  | .object [] => true
  | _ => false

/-- What becomes of the member of a name, or of its absence. -/
abbrev Rule : Type := Option Json → Option Json

namespace Rule

/-- The member stays as it is. -/
def kept : Rule := id

/-- The member is removed if it is null. -/
def withoutNull (tidy : Json → Json) : Rule
  | none => none
  | some .null => none
  | some x => some (tidy x)

/-- The member is removed if there is nothing in it once it is tidied. -/
def withoutVoid (tidy : Json → Json) : Rule
  | none => none
  | some x => if (tidy x).isVoid then none else some (tidy x)

/-- An empty array is added where the member is missing. -/
def filled (tidy : Json → Json) : Rule
  | none => some (.array [])
  | some x => some (tidy x)

end Rule

/-- Anything but null stays, tidied. -/
theorem Rule.withoutNull_of_ne {tidy : Json → Json} {x : Json} (hx : x ≠ .null) :
    withoutNull tidy (some x) = some (tidy x) := by
  cases x with
  | null => exact absurd rfl hx
  | _ => rfl

/-- The entries with what `f` makes of each, without those of which it makes nothing. -/
def filterEntries {β γ : Type} (f : String → β → Option γ) (l : List (String × β)) : List (String × γ) :=
  l.filterMap fun e => (f e.1 e.2).map (e.1, ·)

namespace Json

/-- The members under the rules: those with a rule as it says, all others as they are, and what the rules add. -/
def tidyMembers (rules : List (String × Rule)) (ms : List (String × Json)) : List (String × Json) :=
  filterEntries (fun n x => (rules.lookup n).elim (some x) fun rule => rule (some x)) ms ++
    filterEntries (fun n rule => if n ∈ ms.map (·.1) then none else rule none) rules

/-- An object with the rules applied to its members. -/
def tidyObject (rules : List (String × Rule)) : Json → Json
  | .object ms => .object (tidyMembers rules ms)
  | x => x

/-- An array with every item tidied. -/
def tidyArray (tidy : Json → Json) : Json → Json
  | .array xs => .array (xs.map tidy)
  | x => x

/-- An object with the value of every member tidied. -/
def tidyValues (tidy : Json → Json) : Json → Json
  | .object ms => .object (ms.map fun m => (m.1, tidy m.2))
  | x => x

end Json

/-! ### Tidied members -/

section Entries

variable {β γ : Type} {l : List (String × β)}

/-- The names of filtered entries come in their order. -/
theorem keys_filterEntries_sublist (f : String → β → Option γ) :
    ((filterEntries f l).map (·.1)).Sublist (l.map (·.1)) := by
  induction l with
  | nil => exact .slnil
  | cons e l ih =>
    rw [filterEntries, List.filterMap_cons]
    cases f e.1 e.2 with
    | none => exact ih.cons e.1
    | some v => exact ih.cons_cons e.1

/-- Where every name occurs once, a name has what `f` makes of its value. -/
theorem lookup_filterEntries (f : String → β → Option γ) (hnd : (l.map (·.1)).Nodup) (k : String) :
    (filterEntries f l).lookup k = (l.lookup k).bind (f k) := by
  induction l with
  | nil => rfl
  | cons e l ih =>
    obtain ⟨k', v⟩ := e
    rw [List.map_cons, List.nodup_cons] at hnd
    have hcons : filterEntries f ((k', v) :: l) = ((f k' v).map fun w => (k', w)).toList ++ filterEntries f l := by
      rw [filterEntries, List.filterMap_cons]
      cases f k' v <;> rfl
    rw [hcons, List.lookup_append, ih hnd.2]
    by_cases hk : k = k'
    · subst hk
      rw [lookup_eq_none_iff_notMem.mpr hnd.1, List.lookup_cons_self]
      cases hv : f k v <;> simp [hv]
    · rw [List.lookup_cons, beq_false_of_ne hk]
      cases f k' v <;> simp [List.lookup_cons, beq_false_of_ne hk]

end Entries

namespace Json

variable {rules : List (String × Rule)} {ms : List (String × Json)}

/-- If no name is given twice, none is among the tidied members. -/
theorem nodup_tidyMembers (hrules : (rules.map (·.1)).Nodup) (hms : (ms.map (·.1)).Nodup) :
    ((tidyMembers rules ms).map (·.1)).Nodup := by
  rw [tidyMembers, List.map_append]
  refine ((keys_filterEntries_sublist _).nodup hms).append ((keys_filterEntries_sublist _).nodup hrules) ?_
  intro k hk hadded
  have hmem : k ∈ ms.map (·.1) := (keys_filterEntries_sublist _).subset hk
  refine lookup_eq_none_iff_notMem.mp ?_ hadded
  rw [lookup_filterEntries _ hrules]
  cases rules.lookup k <;> simp [hmem]

/-- Under the name of a rule stands what the rule makes of the member, under any other name what stood there. -/
theorem lookup_tidyMembers (hrules : (rules.map (·.1)).Nodup) (hms : (ms.map (·.1)).Nodup) (k : String) :
    (tidyMembers rules ms).lookup k = (rules.lookup k).elim (ms.lookup k) fun rule => rule (ms.lookup k) := by
  rw [tidyMembers, List.lookup_append, lookup_filterEntries _ hms, lookup_filterEntries _ hrules]
  cases hrule : rules.lookup k with
  | none => cases ms.lookup k <;> simp
  | some rule =>
    cases hk : ms.lookup k with
    | none => simp [lookup_eq_none_iff_notMem.mp hk]
    | some x =>
      have hmem : k ∈ ms.map (·.1) := List.mem_map.mpr ⟨_, mem_of_lookup hk, rfl⟩
      simp [hmem]

end Json

/-! ## The law -/

variable {α β τ : Type}

/-- What is written for what is read of a tree is the tidied tree, up to the order of members. -/
structure Codec.Tidies (c : Codec α) (tidy : Json → Json) : Prop where
  integral : ∀ t : Tree, t.json.Integral → (c.write (c.value t)).Integral
  notNull : ∀ (t : Tree) room, c.shape.problem? room t = none → t.json ≠ .null
  reordered : ∀ (t : Tree) room, c.shape.problem? room t = none → t.json.Distinct →
    (c.write (c.value t)).Reordered (tidy t.json)

/-- What is written for what is read of a member, or of its absence, is what the rule says. -/
structure Slot.Tidies (s : Slot α) (rule : Rule) : Prop where
  integral : ∀ t? : Option Tree, (∀ t ∈ t?, t.json.Integral) → ∀ v, s.write (s.value t?) = some v → v.Integral
  reordered : ∀ (t? : Option Tree) room, (s.mandatory → t?.isSome) →
    (∀ t ∈ t?, s.shape.problem? room t = none ∧ t.json.Distinct) →
    Option.Rel Json.Reordered (s.write (s.value t?)) (rule (t?.map Tree.json))

/-- What is written for what is read of the named members is what the rules of their names say. -/
structure Layout.Tidies (l : Layout τ) (rules : List (String × Rule)) : Prop where
  lawful : l.Lawful
  names : rules.map (·.1) = l.fields.names
  integral : ∀ ms : List (String × Tree), (∀ m ∈ ms, m.2.json.Integral) →
    ∀ n v, (l.write (l.value ms)).lookup n = some v → v.Integral
  reordered : ∀ (ms : List (String × Tree)) room, (∀ n ∈ l.fields.mandatory, (ms.lookup n).isSome) →
    (∀ n t, ms.lookup n = some t → t.json.Distinct ∧
      ∀ read, l.fields.reading? room n = some read → read t = none) →
    ∀ n rule, rules.lookup n = some rule →
      Option.Rel Json.Reordered ((l.write (l.value ms)).lookup n) (rule ((ms.lookup n).map Tree.json))

/-! ## Members -/

/-- What is reordered has something in it if what it was had. -/
theorem Json.Reordered.isVoid_eq {x y : Json} (h : x.Reordered y) : x.isVoid = y.isVoid := by
  cases h with
  | refl => rfl
  | array h => cases h <;> rfl
  | @object ms ms' ns hperm hnames hvalues =>
    have hlength : ms.length = ns.length := by
      rw [hperm.length_eq]
      simpa using congrArg List.length hnames
    cases ms with
    | nil => rw [List.length_nil] at hlength; rw [List.eq_nil_of_length_eq_zero hlength.symm]
    | cons m ms =>
      cases ns with
      | nil => nomatch hlength
      | cons n ns => rfl

namespace Slot.Tidies

variable {c : Codec α} {tidy : Json → Json}

/-- A member that has to be there is kept. -/
theorem required (h : c.Tidies id) : (Slot.required c).Tidies .kept where
  integral t? ht v hv := by
    cases hv
    cases t? with
    | none => exact h.integral .absent trivial
    | some t => exact h.integral t (ht t rfl)
  reordered t? room hpresent ht := by
    cases t? with
    | none => nomatch hpresent rfl
    | some t => exact .some (h.reordered t room (ht t rfl).1 (ht t rfl).2)

/-- A member that may be left out is tidied, and removed if it is null. -/
theorem optional (h : c.Tidies tidy) : (Slot.optional c).Tidies (.withoutNull tidy) where
  integral t? ht v hv := by
    cases t? with
    | none => nomatch hv
    | some t =>
      by_cases hnull : t = .null
      · rw [hnull] at hv
        nomatch hv
      · rw [Slot.optional_value_of_ne hnull] at hv
        cases hv
        exact h.integral t (ht t rfl)
  reordered t? room _ ht := by
    cases t? with
    | none => exact .none
    | some t =>
      obtain ⟨hfits, hdistinct⟩ := ht t rfl
      by_cases hnull : t = .null
      · rw [hnull]
        exact .none
      · have hshape := (Shape.nullable_eq_none_iff.mp hfits).resolve_left hnull
        rw [Slot.optional_value_of_ne hnull, Option.map_some, Rule.withoutNull_of_ne (h.notNull t room hshape)]
        exact .some (h.reordered t room hshape hdistinct)

/-- A member with a default that is left out if there is nothing in what is written. -/
theorem default_withoutVoid (h : c.Tidies tidy) {fallback : α} {omitted : α → Bool}
    (homitted : ∀ a, omitted a = (c.write a).isVoid) (hfallback : omitted fallback) :
    (Slot.default c fallback omitted).Tidies (.withoutVoid tidy) where
  integral t? ht v hv := by
    cases t? with
    | none =>
      simp only [Slot.default, hfallback, if_true] at hv
      nomatch hv
    | some t =>
      simp only [Slot.default] at hv
      split at hv
      · nomatch hv
      · cases hv
        exact h.integral t (ht t rfl)
  reordered t? room _ ht := by
    cases t? with
    | none =>
      simp only [Slot.default, hfallback, if_true]
      exact .none
    | some t =>
      have hsame := h.reordered t room (ht t rfl).1 (ht t rfl).2
      simp only [Slot.default, Option.map_some, Rule.withoutVoid, homitted, hsame.isVoid_eq]
      split
      · exact .none
      · exact .some hsame

/-- A member with a default that is always written. -/
theorem default_filled (h : c.Tidies tidy) {fallback : α} (hfallback : c.write fallback = .array []) :
    (Slot.default c fallback fun _ => false).Tidies (.filled tidy) where
  integral t? ht v hv := by
    cases t? with
    | none =>
      simp only [Slot.default, hfallback, Bool.false_eq_true, if_false] at hv
      cases hv
      trivial
    | some t =>
      simp only [Slot.default, Bool.false_eq_true, if_false] at hv
      cases hv
      exact h.integral t (ht t rfl)
  reordered t? room _ ht := by
    cases t? with
    | none =>
      simp only [Slot.default, hfallback, Bool.false_eq_true, if_false]
      exact .some (.refl _)
    | some t =>
      simp only [Slot.default, Bool.false_eq_true, if_false]
      exact .some (h.reordered t room (ht t rfl).1 (ht t rfl).2)

end Slot.Tidies

namespace Layout.Tidies

/-- Without rules members stay as they are. -/
theorem done : Layout.done.Tidies [] where
  lawful := lawful_done
  names := rfl
  integral _ _ _ _ hv := nomatch hv
  reordered _ _ _ _ _ _ hrule := nomatch hrule

variable {slot : Slot α} {rule : Rule} {rest : Layout β} {rules : List (String × Rule)} {name : String}

/-- The rules for members are the rule for the first and those for the others. -/
theorem field (hname : name ∉ rest.fields.names) (hslot : slot.Tidies rule) (hrest : rest.Tidies rules) :
    (Layout.field name slot rest).Tidies ((name, rule) :: rules) where
  lawful := hrest.lawful.field hname
  names := congrArg (name :: ·) hrest.names
  integral ms hms n v hv := by
    by_cases hn : n = name
    · rw [hn, lookup_write_self hrest.lawful hname] at hv
      exact hslot.integral (ms.lookup name) (fun t ht => hms (name, t) (mem_of_lookup ht)) v hv
    · rw [lookup_write_of_ne hn] at hv
      exact hrest.integral ms hms n v hv
  reordered ms room hpresent hms n r hr := by
    by_cases hn : n = name
    · rw [hn, List.lookup_cons_self] at hr
      cases hr
      rw [hn, lookup_write_self hrest.lawful hname]
      refine hslot.reordered (ms.lookup name) room (fun hm => hpresent name (mem_mandatory_self hm)) fun t ht => ?_
      obtain ⟨hdistinct, hread⟩ := hms name t ht
      exact ⟨hread _ reading?_self, hdistinct⟩
    · rw [List.lookup_cons, beq_false_of_ne hn] at hr
      rw [lookup_write_of_ne hn]
      refine hrest.reordered ms room (fun n hn => hpresent n (mem_mandatory_of_rest hn)) (fun n t ht => ?_) n r hr
      obtain ⟨hdistinct, hread⟩ := hms n t ht
      exact ⟨hdistinct, fun read hrest => hread read (reading?_of_rest hname hrest)⟩

/-! ### Beside members that are kept -/

variable {l : Layout τ}

/-- Every name of a field has its rule, and no other name has one. -/
theorem isSome_rule_iff (h : l.Tidies rules) {n : String} : (rules.lookup n).isSome ↔ n ∈ l.fields.names := by
  rw [isSome_lookup_iff, h.names]

/-- What is written for the named members and the kept ones is what the rules make of all members. -/
theorem reordered_members (h : l.Tidies rules) {members : Members} {room : Nat} (hfit : l.fields.Fit room members)
    (hdistinct : (Tree.object members).json.Distinct) :
    Json.Reordered
      (.object (l.write (l.value members.toList) ++ (Extra.ofMembers l.fields.names members.toList).entries))
      (.object (Json.tidyMembers rules (members.toList.map fun m => (m.1, m.2.json)))) := by
  obtain ⟨hnd, hvalues⟩ := Tree.distinct_object hdistinct
  have hrules : (rules.map (·.1)).Nodup := h.names ▸ h.lawful.nodup
  have hmembers : ((members.toList.map fun m => (m.1, m.2.json)).map (·.1)).Nodup := by
    rw [keys_map]
    exact hnd
  refine .of_lookup (h.lawful.nodup_members _ _) (Json.nodup_tidyMembers hrules hmembers) fun k => ?_
  rw [h.lawful.lookup_members, lastNamed_eq_lookup hnd, Json.lookup_tidyMembers hrules hmembers, lookup_map]
  -- A name of a field is written by its slot and has a rule; any other name is kept and has none.
  by_cases hk : k ∈ l.fields.names
  · obtain ⟨rule, hrule⟩ := Option.isSome_iff_exists.mp (h.isSome_rule_iff.mpr hk)
    rw [if_pos hk, hrule]
    refine h.reordered _ room (fun n hn => ?_) (fun n t ht => ?_) k rule hrule
    · exact isSome_lookup_iff.mpr (hfit.present n hn)
    · have hmem := mem_of_lookup ht
      exact ⟨hvalues _ hmem, hfit.named _ hmem⟩
  · have hrule : rules.lookup k = none := Option.not_isSome_iff_eq_none.mp (mt h.isSome_rule_iff.mp hk)
    rw [if_neg hk, hrule]
    cases hmember : members.toList.lookup k with
    | none => exact .none
    | some t => exact .some (Tree.reordered_toJson t (hvalues _ (mem_of_lookup hmember)))

/-- What is written for the named members and the kept ones has integers for numbers if all members have. -/
theorem integral_members (h : l.Tidies rules) {ms : List (String × Tree)} (hms : ∀ m ∈ ms, m.2.json.Integral) :
    (Json.object (l.write (l.value ms) ++ (Extra.ofMembers l.fields.names ms).entries)).Integral := by
  rw [Json.Integral, Json.integralMembers_iff, List.forall_mem_append]
  constructor
  · exact fun m hm => h.integral ms hms m.1 m.2 (h.lawful.lookup_of_mem_write hm)
  · intro e he
    obtain ⟨-, m, hm, rfl⟩ := Extra.mem_of_mem_ofMembers he
    exact Tree.integral_toJson m.2 (hms m hm)

end Layout.Tidies

/-! ## Values -/

namespace Codec.Tidies

/-- A text stays as it is. -/
theorem string : Codec.string.Tidies id where
  integral _ _ := trivial
  notNull t room h := by
    obtain ⟨ps, s, rfl, -⟩ := Shape.string_eq_none_iff.mp h
    simp [Tree.json]
  reordered t room h _ := by
    obtain ⟨ps, s, rfl, -⟩ := Shape.string_eq_none_iff.mp h
    rw [Tree.json]
    exact .refl _

/-- A truth value stays as it is. -/
theorem bool : Codec.bool.Tidies id where
  integral _ _ := trivial
  notNull t room h := by
    obtain ⟨b, rfl⟩ := Shape.bool_eq_none_iff.mp h
    simp [Tree.json]
  reordered t room h _ := by
    obtain ⟨b, rfl⟩ := Shape.bool_eq_none_iff.mp h
    rw [Tree.json]
    exact .refl _

variable {c : Codec α} {tidy : Json → Json}

/-- A list is tidied element by element. -/
theorem list (h : c.Tidies tidy) : (Codec.list c).Tidies (Json.tidyArray tidy) where
  integral t ht := by
    cases t with
    | array items =>
      rw [Tree.json, Json.Integral, Json.integralItems_iff, Items.jsons_eq, List.forall_mem_map] at ht
      simp only [Codec.list, Json.Integral, Json.integralItems_iff, List.forall_mem_map]
      exact fun x hx => h.integral x (ht x hx)
    | _ => trivial
  notNull t room hfits := by
    obtain ⟨items, r, rfl, -⟩ := Shape.list_eq_none_iff.mp hfits
    simp [Tree.json]
  reordered t room hfits hdistinct := by
    obtain ⟨items, r, rfl, -, -, hitems⟩ := Shape.list_eq_none_iff.mp hfits
    rw [Tree.json, Json.Distinct, Json.distinctItems_iff, Items.jsons_eq, List.forall_mem_map] at hdistinct
    have hwrite : (Codec.list c).write ((Codec.list c).value (.array items)) =
        .array (items.toList.map fun x => c.write (c.value x)) := by
      simp [Codec.list, Function.comp_def]
    rw [hwrite, Tree.json, Items.jsons_eq, Json.tidyArray, List.map_map]
    refine .array ?_
    rw [List.forall₂_map_left_iff, List.forall₂_map_right_iff, List.forall₂_same]
    exact fun x hx => h.reordered x r (hitems x hx) (hdistinct x hx)

/-- A dictionary is tidied value by value. -/
theorem dictionary (h : c.Tidies tidy) : (Codec.dictionary c).Tidies (Json.tidyValues tidy) where
  integral t ht := by
    cases t with
    | object members =>
      rw [Tree.json, Json.Integral, Json.integralMembers_iff, Members.jsons_eq, List.forall_mem_map] at ht
      simp only [Codec.dictionary, Json.Integral, Json.integralMembers_iff, List.forall_mem_map]
      intro e he
      obtain ⟨m, hm, rfl⟩ := List.mem_map.mp (Dict.mem_of_mem_ofList he)
      exact h.integral m.2 (ht m hm)
    | _ => trivial
  notNull t room hfits := by
    obtain ⟨members, r, rfl, -⟩ := Shape.dictionary_eq_none_iff.mp hfits
    simp [Tree.json]
  reordered t room hfits hdistinct := by
    obtain ⟨members, r, rfl, -, -, hmembers⟩ := Shape.dictionary_eq_none_iff.mp hfits
    obtain ⟨hnd, hvalues⟩ := Tree.distinct_object hdistinct
    have hwrite : (Codec.dictionary c).write ((Codec.dictionary c).value (.object members)) =
        .object ((Dict.ofList (members.toList.map fun m => (m.1, c.value m.2))).entries.map
          fun e => (e.1, c.write e.2)) := rfl
    have htidied : Json.tidyValues tidy (Tree.object members).json =
        .object (members.toList.map fun m => (m.1, tidy m.2.json)) := by
      rw [Tree.json, Members.jsons_eq, Json.tidyValues, List.map_map]
      rfl
    rw [hwrite, htidied]
    refine .of_lookup ?_ ?_ fun k => ?_
    · rw [keys_map]
      exact Dict.nodup_keys _
    · rw [keys_map fun t : Tree => tidy t.json]
      exact hnd
    · rw [lookup_map, ← Dict.get?_eq_lookup, Dict.get?_ofList_of_nodup (by rw [keys_map]; exact hnd), lookup_map,
        lookup_map fun t : Tree => tidy t.json]
      cases hk : members.toList.lookup k with
      | none => exact .none
      | some t =>
        have hmem := mem_of_lookup hk
        exact .some (h.reordered t r (hmembers _ hmem) (hvalues _ hmem))

/-- An object is tidied by the rules for its named members, and all others are kept. -/
theorem record {title : String} {layout : Layout τ} {make : τ → Extra → α} {parts : α → τ × Extra}
    {rules : List (String × Rule)} (hlayout : layout.Tidies rules) (hparts : ∀ x extra, parts (make x extra) = (x, extra)) :
    (Codec.record title layout make parts).Tidies (Json.tidyObject rules) where
  integral t ht := by
    have hwrite : ∀ ms : List (String × Tree), (∀ m ∈ ms, m.2.json.Integral) →
        ((Codec.record title layout make parts).write
          (make (layout.value ms) (.ofMembers layout.fields.names ms))).Integral := by
      intro ms hms
      simp only [Codec.record, hparts]
      exact hlayout.integral_members hms
    cases t with
    | object members =>
      rw [Tree.json, Json.Integral, Json.integralMembers_iff, Members.jsons_eq, List.forall_mem_map] at ht
      exact hwrite members.toList ht
    | _ => exact hwrite [] nofun
  notNull t room hfits := by
    obtain ⟨members, r, rfl, -⟩ := Shape.record_eq_none_iff.mp hfits
    simp [Tree.json]
  reordered t room hfits hdistinct := by
    obtain ⟨members, r, rfl, -, hfit⟩ := Shape.record_eq_none_iff.mp hfits
    have hwrite : (Codec.record title layout make parts).write
        ((Codec.record title layout make parts).value (.object members)) =
        .object (layout.write (layout.value members.toList) ++
          (Extra.ofMembers layout.fields.names members.toList).entries) := by
      simp only [Codec.record, hparts]
    rw [hwrite, Tree.json, Members.jsons_eq, Json.tidyObject]
    exact hlayout.reordered_members hfit hdistinct

end Codec.Tidies

end WorkflowAugment

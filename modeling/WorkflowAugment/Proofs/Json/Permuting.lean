import WorkflowAugment.Proofs.Json.Reordering

/-!
# Trees up to the order of members

Two trees are permuted if both are values, what they spell differs in the order of members only, and no object has a repeated
member (`Tree.Permuted`). Then they are of one kind, with items that are permuted one by one, or with members that are found
permuted under the same names (`Tree.Permuted.layer`). So
what is asked of a tree that is kept as it is does not tell them apart: whether it is a value that is not nested too deep, and
what is kept of it (`Tree.Permuted.alike`).
-/

namespace WorkflowAugment

/-! ## Parts that match -/

/-- The items are complete and related one by one. -/
structure Items.Matched (r : Tree → Tree → Prop) (items items' : Items) : Prop where
  complete : items.Complete
  complete' : items'.Complete
  related : List.Forall₂ r items.toList items'.toList

/-- The members are complete, have every name once, and hold related values under the same names. -/
structure Members.Matched (r : Tree → Tree → Prop) (members members' : Members) : Prop where
  complete : members.Complete
  complete' : members'.Complete
  nodup : members.names.Nodup
  nodup' : members'.names.Nodup
  related : ∀ k, Option.Rel r (members.toList.lookup k) (members'.toList.lookup k)

variable {α : Type} {r s : Tree → Tree → Prop}

namespace Items.Matched

variable {items items' : Items}

/-- The relation may be replaced by what it implies for the items. -/
theorem imp (h : items.Matched r items') (hrs : ∀ t ∈ items.toList, ∀ t' ∈ items'.toList, r t t' → s t t') :
    items.Matched s items' where
  complete := h.complete
  complete' := h.complete'
  related := by
    rw [List.forall₂_iff_zip]
    refine ⟨h.related.length_eq, fun hmem => ?_⟩
    obtain ⟨ht, ht'⟩ := List.of_mem_zip hmem
    exact hrs _ ht _ ht' (List.forall₂_zip h.related hmem)

/-- If related trees agree on a property, all items have it on the one side if and only if all have it on the other. -/
theorem forall_mem_iff (h : items.Matched r items') {p q : Tree → Prop} (hpq : ∀ t t', r t t' → (p t ↔ q t')) :
    (∀ t ∈ items.toList, p t) ↔ ∀ t ∈ items'.toList, q t := by
  have hrelated := h.related
  generalize items.toList = ts, items'.toList = ts' at hrelated ⊢
  induction hrelated with
  | nil => simp
  | cons hr _ ih =>
    rw [List.forall_mem_cons, List.forall_mem_cons]
    exact and_congr (hpq _ _ hr) ih

/-- A function that makes the same of related trees makes the same list of the items. -/
theorem map_eq (h : items.Matched r items') {f : Tree → α} (hf : ∀ t t', r t t' → f t = f t') :
    items.toList.map f = items'.toList.map f := by
  rw [← List.forall₂_eq_eq_eq, List.forall₂_map_left_iff, List.forall₂_map_right_iff]
  exact h.related.imp hf

end Items.Matched

namespace Members.Matched

variable {members members' : Members}

/-- The relation may be replaced by what it implies for the values of the members. -/
theorem imp (h : members.Matched r members')
    (hrs : ∀ m ∈ members.toList, ∀ m' ∈ members'.toList, r m.2 m'.2 → s m.2 m'.2) : members.Matched s members' where
  complete := h.complete
  complete' := h.complete'
  nodup := h.nodup
  nodup' := h.nodup'
  related k := rel_imp (h.related k) fun _ ht _ ht' => hrs _ (mem_of_lookup ht) _ (mem_of_lookup ht')

/-- There are the same names on both sides. -/
theorem mem_names_iff (h : members.Matched r members') {k : String} : k ∈ members.names ↔ k ∈ members'.names := by
  rw [Members.names, Members.names, ← isSome_lookup_iff, ← isSome_lookup_iff, isSome_eq_of_rel (h.related k)]

/-- If related trees agree on a property, all members have it on the one side if and only if all have it on the other. -/
theorem forall_mem_iff (h : members.Matched r members') {p q : String → Tree → Prop}
    (hpq : ∀ k t t', r t t' → (p k t ↔ q k t')) : (∀ m ∈ members.toList, p m.1 m.2) ↔ ∀ m ∈ members'.toList, q m.1 m.2 := by
  simp only [Prod.forall, mem_iff_lookup h.nodup, mem_iff_lookup h.nodup']
  exact forall_congr' fun k => forall_mem_iff_of_rel (h.related k) (hpq k)

/-- A function that makes the same of related trees makes the same dictionary of the members. -/
theorem ofList_eq (h : members.Matched r members') {f : Tree → α} (hf : ∀ t t', r t t' → f t = f t') :
    Dict.ofList (members.toList.map fun m => (m.1, f m.2)) = .ofList (members'.toList.map fun m => (m.1, f m.2)) := by
  have hget : ∀ {members : Members}, members.names.Nodup → ∀ k,
      (Dict.ofList (members.toList.map fun m => (m.1, f m.2))).get? k = (members.toList.lookup k).map f := by
    intro members hnd k
    rw [Dict.get?_ofList_of_nodup (by rw [keys_map]; exact hnd), lookup_map]
  refine Dict.ext_get? fun k => ?_
  rw [hget h.nodup, hget h.nodup']
  exact map_eq_of_rel (h.related k) hf

end Members.Matched

/-! ## Values one level down -/

namespace Tree

variable {room : Nat}

/-- Values are without a fault if they are closed off and each is without one. -/
theorem itemsFault?_eq_none_iff :
    ∀ {items : Items}, itemsFault? room items = none ↔ items.Complete ∧ ∀ t ∈ items.toList, t.fault? room = none
  | .close => by simp [itemsFault?, Items.Complete, Items.toList]
  | .stop f => by simp [itemsFault?, Items.Complete]
  | .item head tail => by
    have ih : itemsFault? room tail = none ↔ tail.Complete ∧ ∀ t ∈ tail.toList, t.fault? room = none :=
      itemsFault?_eq_none_iff
    rw [itemsFault?, Option.or_eq_none_iff, ih, Items.Complete, Items.toList, List.forall_mem_cons]
    exact and_left_comm

/-- Members are without a fault if they are closed off, with names that can be read, and each value is without one. -/
theorem membersFault?_eq_none_iff : ∀ {members : Members}, membersFault? room members = none ↔
    members.Complete ∧ ∀ m ∈ members.toList, m.2.fault? room = none
  | .close => by simp [membersFault?, Members.Complete, Members.toList]
  | .stop f | .strayName t | .brokenName ps f => by simp [membersFault?, Members.Complete]
  | .member name value tail => by
    have ih : membersFault? room tail = none ↔ tail.Complete ∧ ∀ m ∈ tail.toList, m.2.fault? room = none :=
      membersFault?_eq_none_iff
    rw [membersFault?, Members.Complete, Members.toList, List.forall_mem_cons]
    cases Piece.text name with
    | error f => simp
    | ok s =>
      simp only [Option.or_eq_none_iff, ih, Except.ok.injEq, exists_eq', true_and]
      exact and_left_comm

/-- An array is without a fault if there is room for it and its values are without one, in one room less. -/
theorem fault?_array_eq_none_iff {items : Items} : (array items).fault? room = none ↔
    ∃ r, room = r + 1 ∧ items.Complete ∧ ∀ t ∈ items.toList, t.fault? r = none := by
  cases room with
  | zero => simp [fault?]
  | succ r => simp [fault?, itemsFault?_eq_none_iff]

/-- An object is without a fault if there is room for it and its members are without one, in one room less. -/
theorem fault?_object_eq_none_iff {members : Members} : (object members).fault? room = none ↔
    ∃ r, room = r + 1 ∧ members.Complete ∧ ∀ m ∈ members.toList, m.2.fault? r = none := by
  cases room with
  | zero => simp [fault?]
  | succ r => simp [fault?, membersFault?_eq_none_iff]

/-- The tree is a value, however deep it is nested. -/
def Valid (t : Tree) : Prop := ∃ room, t.fault? room = none

/-- A tree that is a value, with what it spells. -/
inductive Spells : Tree → Json → Prop
  | null : Spells .null .null
  | bool (b : Bool) : Spells (.bool b) (.bool b)
  | number {n : Numeral} {v : Number} (h : n.number? = some v) : Spells (.number n) (.number v)
  | string {ps : List Piece} {s : String} (h : Piece.text ps = .ok s) : Spells (.string ps) (.string s)
  | array {items : Items} {xs : List Json} (hcomplete : items.Complete) (hitems : ∀ t ∈ items.toList, t.Valid)
    (hxs : xs = items.toList.map json) : Spells (.array items) (.array xs)
  | object {members : Members} {ms : List (String × Json)} (hcomplete : members.Complete)
    (hmembers : ∀ m ∈ members.toList, m.2.Valid) (hms : ms = members.toList.map fun m => (m.1, m.2.json)) :
    Spells (.object members) (.object ms)

/-- A valid tree spells the value that `json` finds in it. -/
theorem Valid.spells {t : Tree} (h : t.Valid) : Spells t t.json := by
  obtain ⟨room, h⟩ := h
  cases t with
  | absent | junk | brokenNumber | brokenString => simp [fault?] at h
  | null => exact .null
  | bool b => exact .bool b
  | number n =>
    cases hn : n.number? with
    | none => simp [fault?, hn] at h
    | some v =>
      rw [json, hn]
      exact .number hn
  | string ps =>
    cases hps : Piece.text ps with
    | error f => simp [fault?, hps] at h
    | ok s =>
      rw [json, spelled_of_text hps]
      exact .string hps
  | array items =>
    obtain ⟨r, -, hcomplete, hitems⟩ := fault?_array_eq_none_iff.mp h
    rw [json, Items.jsons_eq]
    exact .array hcomplete (fun t ht => ⟨r, hitems t ht⟩) rfl
  | object members =>
    obtain ⟨r, -, hcomplete, hmembers⟩ := fault?_object_eq_none_iff.mp h
    rw [json, Members.jsons_eq]
    exact .object hcomplete (fun m hm => ⟨r, hmembers m hm⟩) rfl

/-- A value is a value within any room that it is not nested deeper than. -/
theorem Valid.fault?_eq_none : ∀ {room : Nat} {t : Tree}, t.Valid → t.json.depth ≤ room → t.fault? room = none
  | 0, .array items, _, hdepth | 0, .object members, _, hdepth => absurd hdepth (Nat.not_succ_le_zero _)
  | room + 1, .array items, ⟨_, h⟩, hdepth => by
    obtain ⟨r, -, hcomplete, hitems⟩ := fault?_array_eq_none_iff.mp h
    rw [json, Items.jsons_eq] at hdepth
    have hdepths := Json.depthItems_le_iff.mp (Nat.le_of_succ_le_succ hdepth)
    refine fault?_array_eq_none_iff.mpr ⟨room, rfl, hcomplete, fun t ht => ?_⟩
    exact Valid.fault?_eq_none ⟨r, hitems t ht⟩ (List.forall_mem_map.mp hdepths t ht)
  | room + 1, .object members, ⟨_, h⟩, hdepth => by
    obtain ⟨r, -, hcomplete, hmembers⟩ := fault?_object_eq_none_iff.mp h
    rw [json, Members.jsons_eq] at hdepth
    have hdepths := Json.depthMembers_le_iff.mp (Nat.le_of_succ_le_succ hdepth)
    refine fault?_object_eq_none_iff.mpr ⟨room, rfl, hcomplete, fun m hm => ?_⟩
    exact Valid.fault?_eq_none ⟨r, hmembers m hm⟩ (List.forall_mem_map.mp hdepths m hm)
  | _, .number n, ⟨_, h⟩, _ => h
  | _, .string ps, ⟨_, h⟩, _ => h
  | _, .null, _, _ | _, .bool _, _, _ => rfl

/-! ## Permuted trees -/

/-- The trees are values that differ in the order of members only, and no object has a repeated member. -/
structure Permuted (t t' : Tree) : Prop where
  valid : t.Valid
  valid' : t'.Valid
  reordered : t.json.Reordered t'.json
  distinct : t.json.Distinct

namespace Permuted

/-- What permuted trees are, one level down. -/
inductive Layer : Tree → Tree → Prop
  | null : Layer .null .null
  | bool (b : Bool) : Layer (.bool b) (.bool b)
  | number {n n' : Numeral} {v : Number} (h : n.number? = some v) (h' : n'.number? = some v) :
    Layer (.number n) (.number n')
  | string {ps ps' : List Piece} {s : String} (h : Piece.text ps = .ok s) (h' : Piece.text ps' = .ok s) :
    Layer (.string ps) (.string ps')
  | array {items items' : Items} (h : items.Matched Permuted items') : Layer (.array items) (.array items')
  | object {members members' : Members} (h : members.Matched Permuted members') : Layer (.object members) (.object members')

/-- Permuted trees are of one kind, and so are their parts again. -/
theorem layer {t t' : Tree} (h : t.Permuted t') : Layer t t' := by
  have hspells := h.valid.spells
  have hspells' := h.valid'.spells
  have hreordered := h.reordered
  have hdistinct := h.distinct
  -- The kind of a tree that is a value is the kind of what it spells, so the values can be taken apart in its place.
  generalize t.json = x at hspells hreordered hdistinct
  generalize t'.json = y at hspells' hreordered
  cases hspells with
  | null =>
    cases hreordered
    cases hspells'
    exact .null
  | bool b =>
    cases hreordered
    cases hspells'
    exact .bool b
  | number hn =>
    cases hreordered
    cases hspells' with
    | number hn' => exact .number hn hn'
  | string hs =>
    cases hreordered
    cases hspells' with
    | string hs' => exact .string hs hs'
  | array hcomplete hitems hxs =>
    obtain ⟨ys, rfl, hrelated⟩ := hreordered.eq_array
    cases hspells' with
    | array hcomplete' hitems' hys =>
      subst hxs hys
      rw [List.forall₂_map_left_iff, List.forall₂_map_right_iff] at hrelated
      rw [Json.Distinct, Json.distinctItems_iff, List.forall_mem_map] at hdistinct
      have hmatched : Items.Matched (fun t t' => t.json.Reordered t'.json) _ _ := ⟨hcomplete, hcomplete', hrelated⟩
      exact .array (hmatched.imp fun t ht t' ht' hr => ⟨hitems t ht, hitems' t' ht', hr, hdistinct t ht⟩)
  | object hcomplete hmembers hms =>
    subst hms
    rw [Json.Distinct, Json.distinctMembers_iff, List.forall_mem_map, keys_map] at hdistinct
    obtain ⟨hnd, hdistinct⟩ := hdistinct
    obtain ⟨ns, rfl, hnd', hrelated⟩ := hreordered.eq_object (by rwa [keys_map])
    cases hspells' with
    | object hcomplete' hmembers' hns =>
      subst hns
      rw [keys_map] at hnd'
      simp only [lookup_map] at hrelated
      have hmatched : Members.Matched (fun t t' => t.json.Reordered t'.json) _ _ :=
        ⟨hcomplete, hcomplete', hnd, hnd', fun k => rel_of_map (hrelated k)⟩
      exact .object (hmatched.imp fun m hm m' hm' hr => ⟨hmembers m hm, hmembers' m' hm', hr, hdistinct m hm⟩)

end Permuted

/-! ## What does not depend on the order -/

/-- What is kept of an array is what is kept of each of its values. -/
theorem itemsToJson_eq (items : Items) : itemsToJson items = items.toList.map toJson := by
  cases items with
  | item head tail => rw [itemsToJson, Items.toList, List.map_cons, itemsToJson_eq tail]
  | _ => simp [itemsToJson, Items.toList]

/-- The trees are values within the same rooms, and the same is kept of both. -/
structure Alike (t t' : Tree) : Prop where
  fault?_eq_none_iff : ∀ room, t.fault? room = none ↔ t'.fault? room = none
  toJson_eq : t.toJson = t'.toJson

mutual

/-- Permuted trees are alike. The induction is on the first of them, and the layer finds the parts of the other. -/
theorem Permuted.alike : ∀ {t t' : Tree}, t.Permuted t' → t.Alike t'
  | .array items, t', h => by
    cases h.layer with
    | array hitems =>
      have halike := hitems.imp fun t ht t' _ => alike_of_mem_items items t ht t'
      refine ⟨fun room => ?_, ?_⟩
      · simp only [fault?_array_eq_none_iff, halike.complete, halike.complete', true_and]
        exact exists_congr fun r => and_congr_right fun _ => halike.forall_mem_iff fun _ _ ht => ht.fault?_eq_none_iff r
      · rw [toJson, toJson, itemsToJson_eq, itemsToJson_eq, halike.map_eq fun _ _ ht => ht.toJson_eq]
  | .object members, t', h => by
    cases h.layer with
    | object hmembers =>
      have halike := hmembers.imp fun m hm m' _ => alike_of_mem_members members m hm m'.2
      refine ⟨fun room => ?_, ?_⟩
      · simp only [fault?_object_eq_none_iff, halike.complete, halike.complete', true_and]
        exact exists_congr fun r => and_congr_right fun _ =>
          halike.forall_mem_iff fun _ _ _ ht => ht.fault?_eq_none_iff r
      · rw [toJson_object, toJson_object, halike.ofList_eq fun _ _ ht => ht.toJson_eq]
  | .number n, t', h => by
    cases h.layer with
    | number hn hn' => exact ⟨fun room => by simp [fault?, hn, hn'], by rw [toJson, toJson, hn, hn']⟩
  | .string ps, t', h => by
    cases h.layer with
    | string hs hs' =>
      exact ⟨fun room => by simp [fault?, hs, hs'], by rw [toJson, toJson, spelled_of_text hs, spelled_of_text hs']⟩
  | .null, t', h | .bool _, t', h => by
    cases h.layer
    exact ⟨fun _ => .rfl, rfl⟩
  | .absent, t', h | .junk _, t', h | .brokenNumber _, t', h | .brokenString _ _, t', h => nomatch h.layer

/-- The values of an array are like any trees that they are permuted to. -/
theorem alike_of_mem_items : ∀ items : Items, ∀ t ∈ items.toList, ∀ t', t.Permuted t' → t.Alike t'
  | .item head tail => by
    rw [Items.toList, List.forall_mem_cons]
    exact ⟨fun _ h => h.alike, alike_of_mem_items tail⟩
  | .close | .stop _ => by simp [Items.toList]

/-- The values of an object are like any trees that they are permuted to. -/
theorem alike_of_mem_members : ∀ members : Members, ∀ m ∈ members.toList, ∀ t', m.2.Permuted t' → m.2.Alike t'
  | .member name value tail => by
    rw [Members.toList, List.forall_mem_cons]
    exact ⟨fun _ h => h.alike, alike_of_mem_members tail⟩
  | .close | .stop _ | .strayName _ | .brokenName _ _ => by simp [Members.toList]

end

end Tree

end WorkflowAugment

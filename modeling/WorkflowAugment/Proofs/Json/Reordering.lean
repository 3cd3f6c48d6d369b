import WorkflowAugment.Proofs.Json.Scanning
import WorkflowAugment.Proofs.Json.Shapes

/-!
# Values up to the order of members

`Tree.json` is the value that a tree spells, with the members of its objects in the order of the text and as often as they
stand there. `Json.Reordered` relates values that differ in the order of members only, at every depth. Where every name
occurs once in its object, an object is known up to order by its look-ups (`Json.Reordered.of_lookup`), and the kept form of
a tree, with members by ascending name, is what the tree spells up to order (`Tree.reordered_toJson`).
-/

namespace WorkflowAugment

/-! ## What a text spells -/

mutual

/-- The value that a tree spells, with all members in the order of the text. What is no value counts as null. -/
def Tree.json : Tree → Json
  | .bool b => .bool b
  | .number n => n.number?.elim .null .number
  | .string ps => .string (Tree.spelled ps)
  | .array items => .array items.jsons
  | .object members => .object members.jsons
  | _ => .null

/-- The values that items spell. -/
def Items.jsons : Items → List Json
  | .item head tail => head.json :: tail.jsons
  | _ => []

/-- The members that members spell. -/
def Members.jsons : Members → List (String × Json)
  | .member name value tail => (Tree.spelled name, value.json) :: tail.jsons
  | _ => []

end

/-- The value that a text spells. -/
def Json.ofText (text : String) : Json := (Tree.scan text.toList).1.json

/-- What the values of an array spell is what each of them spells. -/
theorem Items.jsons_eq (items : Items) : items.jsons = items.toList.map Tree.json := by
  cases items with
  | item head tail => rw [jsons, toList, List.map_cons, jsons_eq tail]
  | _ => simp [jsons, toList]

/-- What the members of an object spell is what their values spell, under their names. -/
theorem Members.jsons_eq (members : Members) : members.jsons = members.toList.map fun m => (m.1, m.2.json) := by
  cases members with
  | member name value tail => rw [jsons, toList, List.map_cons, jsons_eq tail]
  | _ => simp [jsons, toList]

namespace Json

mutual

/-- No object in the value has two members of one name. -/
def Distinct : Json → Prop
  | .array items => DistinctItems items
  | .object members => (members.map (·.1)).Nodup ∧ DistinctMembers members
  | _ => True

/-- `Distinct` for the items of an array. -/
def DistinctItems : List Json → Prop
  | [] => True
  | x :: xs => x.Distinct ∧ DistinctItems xs

/-- `Distinct` for the values of the members of an object. -/
def DistinctMembers : List (String × Json) → Prop
  | [] => True
  | (_, x) :: ms => x.Distinct ∧ DistinctMembers ms

end

/-- In an array names are different wherever they are in each value. -/
theorem distinctItems_iff {xs : List Json} : DistinctItems xs ↔ ∀ x ∈ xs, x.Distinct := by
  induction xs with
  | nil => simp [DistinctItems]
  | cons x xs ih => simp [DistinctItems, ih]

/-- In the values of an object names are different wherever they are in each value. -/
theorem distinctMembers_iff {ms : List (String × Json)} : DistinctMembers ms ↔ ∀ m ∈ ms, m.2.Distinct := by
  induction ms with
  | nil => simp [DistinctMembers]
  | cons m ms ih => simp [DistinctMembers, ih]

mutual

/-- A value whose numbers are integers is spelled by its tree. -/
theorem json_toTree : ∀ x : Json, x.Integral → x.toTree.json = x
  | .number n, hint => by
    obtain ⟨i, h, rfl⟩ := hint
    simp [Tree.json, Numeral.number?_ofInt h]
  | .array items, hint => by rw [toTree, Tree.json, jsons_toItems items hint]
  | .object members, hint => by rw [toTree, Tree.json, jsons_toMembers members hint]
  | .string s, _ => by simp [toTree, Tree.json]
  | .null, _ | .bool _, _ => by simp [toTree, Tree.json]

/-- Integral values are written as a text that spells them. -/
theorem jsons_toItems : ∀ xs : List Json, IntegralItems xs → (toItems xs).jsons = xs
  | [], _ => by simp [toItems, Items.jsons]
  | x :: xs, hint => by rw [toItems, Items.jsons, json_toTree x hint.1, jsons_toItems xs hint.2]

/-- Members with integral values are written as a text that spells them. -/
theorem jsons_toMembers : ∀ ms : List (String × Json), IntegralMembers ms → (toMembers ms).jsons = ms
  | [], _ => by simp [toMembers, Members.jsons]
  | (name, x) :: ms, hint => by
    rw [toMembers, Members.jsons, Tree.spelled_ofString, json_toTree x hint.1, jsons_toMembers ms hint.2]

end

/-- A value whose numbers are integers is spelled by both its texts. -/
theorem ofText_render {x : Json} (hint : x.Integral) (isPretty : Bool) : ofText (x.render isPretty) = x := by
  rw [ofText, scan_render x isPretty]
  exact json_toTree x hint

/-! ## Up to the order of members -/

/-- The values differ in the order of members only. -/
inductive Reordered : Json → Json → Prop
  | refl (x : Json) : Reordered x x
  | array {xs ys : List Json} (h : List.Forall₂ Reordered xs ys) : Reordered (.array xs) (.array ys)
  /-- The members are put in another order, and the values behind the names are reordered. -/
  | object {ms ms' ns : List (String × Json)} (hperm : ms.Perm ms') (hnames : ms'.map (·.1) = ns.map (·.1))
    (hvalues : List.Forall₂ Reordered (ms'.map (·.2)) (ns.map (·.2))) : Reordered (.object ms) (.object ns)

namespace Reordered

variable {x y : Json} {ms ns : List (String × Json)}

/-- The first two members of an object may change places. -/
theorem swap (j k : String) {x x' y y' : Json} (hx : x.Reordered x') (hy : y.Reordered y') (ms : List (String × Json)) :
    Reordered (.object ((j, x) :: (k, y) :: ms)) (.object ((k, y') :: (j, x') :: ms)) :=
  .object (.swap _ _ _) rfl (.cons hy (.cons hx (List.forall₂_same.mpr fun z _ => .refl z)))

/-- Members with every name once that answer every look-up alike up to order are the same up to order. -/
theorem of_lookup (hms : (ms.map (·.1)).Nodup) (hns : (ns.map (·.1)).Nodup)
    (h : ∀ k, Option.Rel Reordered (ms.lookup k) (ns.lookup k)) : Reordered (.object ms) (.object ns) := by
  suffices hsplit : ∃ ms', ms.Perm ms' ∧ ms'.map (·.1) = ns.map (·.1) ∧
      List.Forall₂ Reordered (ms'.map (·.2)) (ns.map (·.2)) by
    obtain ⟨ms', hperm, hnames, hvalues⟩ := hsplit
    exact .object hperm hnames hvalues
  induction ns generalizing ms with
  | nil =>
    cases ms with
    | nil => exact ⟨[], .nil, rfl, .nil⟩
    | cons m ms =>
      have := h m.1
      rw [List.lookup_cons_self] at this
      nomatch this
  | cons n ns ih =>
    obtain ⟨k, y⟩ := n
    rw [List.map_cons, List.nodup_cons] at hns
    obtain ⟨x, hx, hxy⟩ : ∃ x, ms.lookup k = some x ∧ Reordered x y := by
      have hk := h k
      rw [List.lookup_cons_self] at hk
      generalize ms.lookup k = o at hk
      cases hk with
      | some hxy => exact ⟨_, rfl, hxy⟩
    obtain ⟨as, bs, rfl⟩ := List.append_of_mem (mem_of_lookup hx)
    have hperm : (as ++ (k, x) :: bs).Perm ((k, x) :: (as ++ bs)) := List.perm_middle
    have hnd : (((k, x) :: (as ++ bs)).map (·.1)).Nodup := (hperm.map _).nodup_iff.mp hms
    rw [List.map_cons, List.nodup_cons] at hnd
    have hrest : ∀ k', Option.Rel Reordered ((as ++ bs).lookup k') (ns.lookup k') := by
      intro k'
      by_cases hk : k' = k
      · rw [hk, lookup_eq_none_iff_notMem.mpr hnd.1, lookup_eq_none_iff_notMem.mpr hns.1]
        exact .none
      · have := h k'
        rwa [List.lookup_append, List.lookup_cons, List.lookup_cons, beq_false_of_ne hk, ← List.lookup_append] at this
    obtain ⟨ms', hperm', hnames, hvalues⟩ := ih hnd.2 hns.2 hrest
    exact ⟨(k, x) :: ms', hperm.trans (hperm'.cons _), congrArg (k :: ·) hnames, .cons hxy hvalues⟩

/-- What an array is reordered to is an array, item by item. -/
theorem eq_array {xs : List Json} (h : Reordered (.array xs) y) : ∃ ys, y = .array ys ∧ List.Forall₂ Reordered xs ys := by
  cases h with
  | refl => exact ⟨xs, rfl, List.forall₂_same.mpr fun x _ => .refl x⟩
  | array h => exact ⟨_, rfl, h⟩

/-- What an object with every name once is reordered to is such an object, and it answers every look-up alike up to order. -/
theorem eq_object (h : Reordered (.object ms) y) (hms : (ms.map (·.1)).Nodup) :
    ∃ ns, y = .object ns ∧ (ns.map (·.1)).Nodup ∧ ∀ k, Option.Rel Reordered (ms.lookup k) (ns.lookup k) := by
  cases h with
  | refl =>
    refine ⟨ms, rfl, hms, fun k => ?_⟩
    cases ms.lookup k with
    | none => exact .none
    | some x => exact .some (.refl x)
  | object hperm hnames hvalues =>
    refine ⟨_, rfl, hnames ▸ (hperm.map _).nodup_iff.mp hms, fun k => ?_⟩
    rw [lookup_eq_of_perm hms hperm]
    exact rel_lookup hnames hvalues k

end Reordered

end Json

/-- In an object without repeated names the names of the text are different, and so it is in each value. -/
theorem Tree.distinct_object {members : Members} (h : (object members).json.Distinct) :
    members.names.Nodup ∧ ∀ m ∈ members.toList, m.2.json.Distinct := by
  rw [json, Json.Distinct, Json.distinctMembers_iff, Members.jsons_eq, List.map_map, List.forall_mem_map] at h
  exact h

/-! ## Kept values -/

/-- The kept members are a dictionary. -/
theorem Tree.membersToJson_eq : ∀ (members : Members) (d : Dict Json), membersToJson members d.entries =
    ((members.toList.map fun m => (m.1, m.2.toJson)).foldl (fun d e => d.insert e.1 e.2) d).entries
  | .member name value tail, d => by
    rw [membersToJson, Members.toList, List.map_cons, List.foldl_cons]
    exact membersToJson_eq tail (d.insert (spelled name) value.toJson)
  | .close, d | .stop _, d | .strayName _, d | .brokenName _ _, d => by
    simp [membersToJson, Members.toList]

namespace Tree

/-- The kept form of an object is a dictionary of its members. -/
theorem toJson_object (members : Members) :
    (object members).toJson = .object (Dict.ofList (members.toList.map fun m => (m.1, m.2.toJson))).entries := by
  rw [toJson]
  exact congrArg Json.object (membersToJson_eq members .empty)

mutual

/-- What is kept of a tree is what it spells, up to the order of members. -/
theorem reordered_toJson : ∀ t : Tree, t.json.Distinct → t.toJson.Reordered t.json
  | .array items, h => by
    rw [toJson, json]
    exact .array (reordered_itemsToJson items h)
  | .object members, h => by
    have hmembers := reordered_membersToJson members h.2
    obtain ⟨hnd, -⟩ := distinct_object h
    have hnames : ∀ f : Tree → Json, ((members.toList.map fun m => (m.1, f m.2)).map (·.1)).Nodup := by
      intro f
      rw [keys_map]
      exact hnd
    rw [toJson_object, json, Members.jsons_eq]
    refine .of_lookup (Dict.nodup_keys _) (hnames _) fun k => ?_
    rw [← Dict.get?_eq_lookup, Dict.get?_ofList_of_nodup (hnames _), lookup_map, lookup_map]
    cases hk : members.toList.lookup k with
    | none => exact .none
    | some t => exact .some (hmembers (k, t) (mem_of_lookup hk))
  | .number n, _ => by
    rw [toJson, json]
    exact .refl _
  | .absent, _ | .junk _, _ | .brokenNumber _, _ | .brokenString _ _, _ | .null, _ | .bool _, _ | .string _, _ => by
    simp only [toJson, json]
    exact .refl _

/-- The values of an array are kept up to the order of members. -/
theorem reordered_itemsToJson : ∀ items : Items, Json.DistinctItems items.jsons →
    List.Forall₂ Json.Reordered (itemsToJson items) items.jsons
  | .item head tail, h => by
    rw [itemsToJson, Items.jsons]
    exact .cons (reordered_toJson head h.1) (reordered_itemsToJson tail h.2)
  | .close, _ | .stop _, _ => by
    simp only [itemsToJson, Items.jsons]
    exact .nil

/-- The values of an object are kept up to the order of members. -/
theorem reordered_membersToJson : ∀ members : Members, Json.DistinctMembers members.jsons →
    ∀ m ∈ members.toList, m.2.toJson.Reordered m.2.json
  | .member name value tail, h => by
    rw [Members.toList, List.forall_mem_cons]
    exact ⟨reordered_toJson value h.1, reordered_membersToJson tail h.2⟩
  | .close, _ | .stop _, _ | .strayName _, _ | .brokenName _ _, _ => by simp [Members.toList]

end

mutual

/-- Keeping a tree makes no other numbers of it. -/
theorem integral_toJson : ∀ t : Tree, t.json.Integral → t.toJson.Integral
  | .array items, h => by
    rw [toJson, Json.Integral, Json.integralItems_iff]
    exact integral_itemsToJson items h
  | .object members, h => by
    rw [toJson_object, Json.Integral, Json.integralMembers_iff]
    intro e he
    obtain ⟨m, hm, rfl⟩ := List.mem_map.mp (Dict.mem_of_mem_ofList he)
    exact integral_membersToJson members h m hm
  | .number n, h => by
    rw [toJson]
    exact h
  | .absent, _ | .junk _, _ | .brokenNumber _, _ | .brokenString _ _, _ | .null, _ | .bool _, _ | .string _, _ => by
    simp only [toJson]
    trivial

/-- What is kept of integral values in an array is integral. -/
theorem integral_itemsToJson : ∀ items : Items, Json.IntegralItems items.jsons → ∀ x ∈ itemsToJson items, x.Integral
  | .item head tail, h => by
    rw [itemsToJson, List.forall_mem_cons]
    exact ⟨integral_toJson head h.1, integral_itemsToJson tail h.2⟩
  | .close, _ | .stop _, _ => by simp [itemsToJson]

/-- What is kept of integral values in an object is integral. -/
theorem integral_membersToJson : ∀ members : Members, Json.IntegralMembers members.jsons →
    ∀ m ∈ members.toList, m.2.toJson.Integral
  | .member name value tail, h => by
    rw [Members.toList, List.forall_mem_cons]
    exact ⟨integral_toJson value h.1, integral_membersToJson tail h.2⟩
  | .close, _ | .stop _, _ | .strayName _, _ | .brokenName _ _, _ => by simp [Members.toList]

end

end Tree

end WorkflowAugment

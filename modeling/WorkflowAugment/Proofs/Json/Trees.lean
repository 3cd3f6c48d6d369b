import WorkflowAugment.Proofs.Json.Spelling
import WorkflowAugment.Proofs.Lookup

/-!
# The tree that a value is written as

`Json.toTree` is the tree of the text of a value. Reading it gives the value back, as long as the value is canonical and its
numbers are integers (`Json.toJson_toTree`), and nothing is wrong with it if it is not nested too deep
(`Json.fault?_toTree`). The members that an object keeps beside the named ones are known by what the object has under their
names (`Extra.get?_ofMembers`), and they are kept as they are when they are read back (`Extra.ofMembers_append`).
-/

namespace WorkflowAugment

namespace Json

mutual

/-- The tree that a value is written as. A number is the literal of its digits. -/
def toTree : Json → Tree
  | .null => .null
  | .bool b => .bool b
  | .number n => (Tree.scanNumber n.render).1
  | .string s => .string (Piece.ofString s)
  | .array items => .array (toItems items)
  | .object members => .object (toMembers members)

/-- The items of an array as they are written. -/
def toItems : List Json → Items
  | [] => .close
  | x :: xs => .item x.toTree (toItems xs)

/-- The members of an object as they are written. -/
def toMembers : List (String × Json) → Members
  | [] => .close
  | (name, x) :: ms => .member (Piece.ofString name) x.toTree (toMembers ms)

end

mutual

/-- All numbers in the value are integers of 64 bits. -/
def Integral : Json → Prop
  | .number n => ∃ i h, n = .integer i h
  | .array items => IntegralItems items
  | .object members => IntegralMembers members
  | _ => True

/-- `Integral` for the items of an array. -/
def IntegralItems : List Json → Prop
  | [] => True
  | x :: xs => x.Integral ∧ IntegralItems xs

/-- `Integral` for the values of the members of an object. -/
def IntegralMembers : List (String × Json) → Prop
  | [] => True
  | (_, x) :: ms => x.Integral ∧ IntegralMembers ms

end

mutual

/-- How deep arrays and objects are nested in the value, the outermost counted. -/
def depth : Json → Nat
  | .array items => depthItems items + 1
  | .object members => depthMembers members + 1
  | _ => 0

/-- The depth of the deepest item. -/
def depthItems : List Json → Nat
  | [] => 0
  | x :: xs => max x.depth (depthItems xs)

/-- The depth of the deepest value of a member. -/
def depthMembers : List (String × Json) → Nat
  | [] => 0
  | (_, x) :: ms => max x.depth (depthMembers ms)

end

/-- The values of an array are integral if each is. -/
theorem integralItems_iff {xs : List Json} : IntegralItems xs ↔ ∀ x ∈ xs, x.Integral := by
  induction xs with
  | nil => simp [IntegralItems]
  | cons x xs ih => simp [IntegralItems, ih]

/-- The values of an object are integral if each is. -/
theorem integralMembers_iff {ms : List (String × Json)} : IntegralMembers ms ↔ ∀ m ∈ ms, m.2.Integral := by
  induction ms with
  | nil => simp [IntegralMembers]
  | cons m ms ih => simp [IntegralMembers, ih]

/-- The values of an array are nested no deeper than the deepest. -/
theorem depthItems_le_iff {xs : List Json} {n : Nat} : depthItems xs ≤ n ↔ ∀ x ∈ xs, x.depth ≤ n := by
  induction xs with
  | nil => simp [depthItems]
  | cons x xs ih => rw [depthItems, Nat.max_le, ih, List.forall_mem_cons]

/-- The values of an object are nested no deeper than the deepest. -/
theorem depthMembers_le_iff {ms : List (String × Json)} {n : Nat} :
    depthMembers ms ≤ n ↔ ∀ m ∈ ms, m.2.depth ≤ n := by
  induction ms with
  | nil => simp [depthMembers]
  | cons m ms ih => rw [depthMembers, Nat.max_le, ih, List.forall_mem_cons]

/-- An integer is written as its digits, without point and exponent. -/
@[simp] theorem toTree_integer (i : Int) (h : FitsWord i) : (number (.integer i h)).toTree = .number (.ofInt i) := by
  have hscan := Tree.scanNumber_render i h Tree.endsNumber_nil
  rw [List.append_nil] at hscan
  rw [toTree, hscan]

/-! ### Reading them back -/

mutual

/-- Nothing is wrong with the tree of a value that is not nested too deep. -/
theorem fault?_toTree : ∀ (x : Json) {room : Nat}, x.Integral → x.depth ≤ room → x.toTree.fault? room = none
  | .number n, room, hint, _ => by
    obtain ⟨i, h, rfl⟩ := hint
    simp [Tree.fault?, Numeral.number?_ofInt h]
  | .array items, 0, _, hdepth | .object members, 0, _, hdepth => absurd hdepth (Nat.not_succ_le_zero _)
  | .array items, room + 1, hint, hdepth => by
    rw [toTree, Tree.fault?]
    exact itemsFault?_toItems items hint (Nat.le_of_succ_le_succ hdepth)
  | .object members, room + 1, hint, hdepth => by
    rw [toTree, Tree.fault?]
    exact membersFault?_toMembers members hint (Nat.le_of_succ_le_succ hdepth)
  | .string s, room, _, _ => by simp [toTree, Tree.fault?]
  | .null, room, _, _ | .bool _, room, _, _ => by simp [toTree, Tree.fault?]

/-- Integral values that fit the room are written without a fault. -/
theorem itemsFault?_toItems : ∀ (xs : List Json) {room : Nat}, IntegralItems xs → depthItems xs ≤ room →
    Tree.itemsFault? room (toItems xs) = none
  | [], room, _, _ => by rw [toItems, Tree.itemsFault?]
  | x :: xs, room, hint, hdepth => by
    have hmax : x.depth ≤ room ∧ depthItems xs ≤ room := Nat.max_le.mp hdepth
    rw [toItems, Tree.itemsFault?, fault?_toTree x hint.1 hmax.1, itemsFault?_toItems xs hint.2 hmax.2]
    rfl

/-- Members with integral values that fit the room are written without a fault. -/
theorem membersFault?_toMembers : ∀ (ms : List (String × Json)) {room : Nat}, IntegralMembers ms →
    depthMembers ms ≤ room → Tree.membersFault? room (toMembers ms) = none
  | [], room, _, _ => by rw [toMembers, Tree.membersFault?]
  | (name, x) :: ms, room, hint, hdepth => by
    have hmax : x.depth ≤ room ∧ depthMembers ms ≤ room := Nat.max_le.mp hdepth
    rw [toMembers, Tree.membersFault?, Piece.text_ofString]
    simp only [fault?_toTree x hint.1 hmax.1, membersFault?_toMembers ms hint.2 hmax.2, Option.or_none]

end

mutual

/-- The value of the tree of a canonical value is the value. -/
theorem toJson_toTree : ∀ (x : Json), x.Canonical → x.Integral → x.toTree.toJson = x
  | .number n, _, hint => by
    obtain ⟨i, h, rfl⟩ := hint
    simp [Tree.toJson, Numeral.number?_ofInt h]
  | .array items, hcan, hint => by
    rw [toTree, Tree.toJson, itemsToJson_toItems items hcan hint]
  | .object members, hcan, hint => by
    rw [toTree, Tree.toJson, membersToJson_toMembers members [] hcan.1 hcan.2 hint]
    rfl
  | .string s, _, _ => by simp [toTree, Tree.toJson]
  | .null, _, _ | .bool _, _, _ => by simp [toTree, Tree.toJson]

/-- Canonical values are kept as they are written. -/
theorem itemsToJson_toItems : ∀ (xs : List Json), CanonicalItems xs → IntegralItems xs →
    Tree.itemsToJson (toItems xs) = xs
  | [], _, _ => by simp [toItems, Tree.itemsToJson]
  | x :: xs, hcan, hint => by
    rw [toItems, Tree.itemsToJson, toJson_toTree x hcan.1 hint.1, itemsToJson_toItems xs hcan.2 hint.2]

/-- Members in order, with canonical values, are kept as they are written, behind those before them. -/
theorem membersToJson_toMembers : ∀ (ms before : List (String × Json)),
    (before ++ ms).Pairwise (fun a b => a.1 < b.1) → CanonicalMembers ms → IntegralMembers ms →
    Tree.membersToJson (toMembers ms) before = before ++ ms
  | [], before, _, _, _ => by simp [toMembers, Tree.membersToJson]
  | (name, x) :: ms, before, hasc, hcan, hint => by
    have hlt : ∀ e ∈ before, e.1 < name := fun e he => (List.pairwise_append.mp hasc).2.2 e he _ List.mem_cons_self
    rw [toMembers, Tree.membersToJson, Tree.spelled_ofString, toJson_toTree x hcan.1 hint.1,
      Dict.insertEntry_of_lt x hlt, membersToJson_toMembers ms _ (by simpa using hasc) hcan.2 hint.2, List.append_assoc]
    rfl

end

end Json

/-! ## Members without a name of their own -/

namespace Extra

/-- The kept members are a dictionary of those without a name of their own. -/
theorem dict_ofMembers (named : List String) (ms : List (String × Tree)) :
    (ofMembers named ms).dict = .ofList ((ms.filter (·.1 ∉ named)).map fun m => (m.1, m.2.toJson)) := by
  have hfold : ∀ x : Extra, (ms.foldl (fun x m => if m.1 ∈ named then x
        else x.insert m.1 m.2.toJson (Tree.canonical_toJson m.2)) x).dict =
      ((ms.filter (·.1 ∉ named)).map fun m => (m.1, m.2.toJson)).foldl (fun d e => d.insert e.1 e.2) x.dict := by
    induction ms with
    | nil => intro x; rfl
    | cons m ms ih =>
      intro x
      rw [List.foldl_cons, ih]
      by_cases hm : m.1 ∈ named
      · simp [hm]
      · simp [hm, insert]
  exact hfold .empty

/-- The kept members come from the members of the object. -/
theorem mem_of_mem_ofMembers {named : List String} {ms : List (String × Tree)} {e : String × Json}
    (h : e ∈ (ofMembers named ms).entries) : e.1 ∉ named ∧ ∃ m ∈ ms, e = (m.1, m.2.toJson) := by
  rw [entries, dict_ofMembers] at h
  obtain ⟨m, hm, rfl⟩ := List.mem_map.mp (Dict.mem_of_mem_ofList h)
  obtain ⟨hm, hnamed⟩ := List.mem_filter.mp hm
  exact ⟨of_decide_eq_true hnamed, m, hm, rfl⟩

/-- What is kept under a name is what the object has there last, unless the name is one of its own. -/
theorem get?_ofMembers (named : List String) (ms : List (String × Tree)) (k : String) :
    (ofMembers named ms).dict.get? k = if k ∈ named then none else (lastNamed k ms).map Tree.toJson := by
  rw [dict_ofMembers, Dict.get?_ofList, lastNamed_map, lastNamed_filter fun k => k ∉ named]
  by_cases hk : k ∈ named <;> simp [hk]

/-- The members have none of the names, and their numbers are integers of 64 bits. -/
def Plain (names : List String) (x : Extra) : Prop := ∀ e ∈ x.entries, e.1 ∉ names ∧ e.2.Integral

/-- No members are plain. -/
theorem plain_empty (names : List String) : Plain names .empty := by simp [Plain, entries, empty, Dict.empty]

/-- Plain members are found under none of the names. -/
theorem Plain.lookup_eq_none {names : List String} {x : Extra} (h : x.Plain names) {n : String} (hn : n ∈ names) :
    x.entries.lookup n = none := by
  rw [lookup_eq_none_iff_notMem, List.mem_map]
  rintro ⟨e, he, rfl⟩
  exact (h e he).1 hn

/-- Plain members are kept as they are when they are read back among the named ones. -/
theorem ofMembers_append {named : List String} {ms : List (String × Tree)} {x : Extra} (hms : ∀ m ∈ ms, m.1 ∈ named)
    (hx : x.Plain named) : ofMembers named (ms ++ x.entries.map fun e => (e.1, e.2.toTree)) = x := by
  have hnamed : ms.filter (·.1 ∉ named) = [] := by
    simpa [List.filter_eq_nil_iff] using hms
  have hkept : (x.entries.map fun e => (e.1, e.2.toTree)).filter (·.1 ∉ named) =
      x.entries.map fun e => (e.1, e.2.toTree) := by
    rw [List.filter_eq_self]
    intro m hm
    obtain ⟨e, he, rfl⟩ := List.mem_map.mp hm
    simpa using (hx e he).1
  have hback : (x.entries.map fun e => (e.1, e.2.toTree)).map (fun m => (m.1, m.2.toJson)) = x.entries := by
    rw [List.map_map]
    refine (List.map_congr_left fun e he => ?_).trans (List.map_id _)
    simp [Json.toJson_toTree e.2 (x.canonical e he) (hx e he).2]
  refine Extra.ext ?_
  rw [dict_ofMembers, List.filter_append, hnamed, List.nil_append, hkept, hback]
  exact Dict.ofList_entries x.dict

end Extra

end WorkflowAugment

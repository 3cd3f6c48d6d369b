import WorkflowAugment.Proofs.Json.Permuting
import WorkflowAugment.Proofs.Json.Restoring

/-!
# Places in a document

A place is given by the steps that lead to it from the outside: to an item of an array, or to a member by its name, the last
of that name if there are several. Of a document that is read and kept, what stands at a place is what is written for the value
that stood there (`Tree.at?_toTree_toJson`).
-/

namespace WorkflowAugment.Tree

/-- A step into a value. -/
inductive Step where
  | item (i : Nat)
  | member (name : String)
deriving DecidableEq, Repr

/-- Where a value stands in a document: the steps to it, the outermost first. -/
abbrev Place : Type := List Step

/-- What stands one step inside a tree. -/
def child? : Step → Tree → Option Tree
  | .item i, .array items => items.toList[i]?
  | .member name, .object members => lastNamed name members.toList
  | _, _ => none

/-- What stands at a place of a tree. -/
def at? : Tree → Place → Option Tree
  | t, [] => some t
  | t, s :: p => (t.child? s).bind fun u => at? u p

/-- The literal of the number that stands at a place of a text. -/
def numeralAt? (text : String) (p : Place) : Option Numeral :=
  match (scan text.toList).1.at? p with
  | some (.number n) => some n
  | _ => none

/-- A numeral stands at a place of a text if it does in the tree that is scanned. -/
theorem numeralAt?_eq_some_iff {text : String} {p : Place} {n : Numeral} :
    numeralAt? text p = some n ↔ (scan text.toList).1.at? p = some (.number n) := by
  unfold numeralAt?
  split
  · next m hm => simp [hm]
  · next hnone =>
    constructor
    · intro h
      nomatch h
    · intro h
      exact absurd h (hnone n)

/-- The children of an array are its values, by position. -/
@[simp] theorem child?_item_array (i : Nat) (items : Items) : (array items).child? (.item i) = items.toList[i]? := rfl

/-- The child of an object under a name is the last value with the name. -/
@[simp] theorem child?_member_object (name : String) (members : Members) :
    (object members).child? (.member name) = lastNamed name members.toList := rfl

variable {t u : Tree} {s : Step}

/-- A number has nothing inside. -/
@[simp] theorem child?_number (n : Numeral) (s : Step) : (number n).child? s = none := by cases s <;> rfl

/-- A literal that is a value stands for a number. -/
theorem Valid.exists_number? {n : Numeral} (h : (number n).Valid) : ∃ v, n.number? = some v := by
  obtain ⟨room, h⟩ := h
  cases hn : n.number? with
  | none => simp [fault?, hn] at h
  | some v => exact ⟨v, rfl⟩

/-- What stands inside a value is a value. -/
theorem Valid.of_child? (h : t.Valid) (hu : t.child? s = some u) : u.Valid := by
  obtain ⟨room, h⟩ := h
  cases t with
  | array items =>
    cases s with
    | item i =>
      obtain ⟨r, -, -, hitems⟩ := fault?_array_eq_none_iff.mp h
      exact ⟨r, hitems u (List.mem_of_getElem? hu)⟩
    | member name => cases hu
  | object members =>
    cases s with
    | item i => cases hu
    | member name =>
      obtain ⟨r, -, -, hmembers⟩ := fault?_object_eq_none_iff.mp h
      exact ⟨r, hmembers (name, u) (mem_of_lastNamed hu)⟩
  | _ => cases s <;> cases hu

/-- What stands at a place of a valid tree is valid. -/
theorem Valid.of_at? : ∀ {p : Place} {t u : Tree}, t.Valid → t.at? p = some u → u.Valid
  | [], t, u, h, hu => by
    cases hu
    exact h
  | s :: p, t, u, h, hu => by
    rw [at?, Option.bind_eq_some_iff] at hu
    obtain ⟨v, hv, hu⟩ := hu
    exact Valid.of_at? (h.of_child? hv) hu

/-! ## What is kept at a place -/

/-- A number is written as a literal. -/
theorem exists_toTree_number (v : Number) : ∃ n, (Json.number v).toTree = .number n := by
  obtain ⟨n, hn⟩ := exists_scanNumber v
  have hnil := hn [] endsNumber_nil
  rw [List.append_nil] at hnil
  exact ⟨n, by rw [Json.toTree, hnil]⟩

/-- Below a number there is nothing. -/
theorem child?_toTree_number (v : Number) (s : Step) : (Json.number v).toTree.child? s = none := by
  obtain ⟨n, hn⟩ := exists_toTree_number v
  rw [hn, child?_number]

/-- What is written for the value of a tree has inside what is written for what stands inside the tree. -/
theorem child?_toTree_toJson (t : Tree) (s : Step) :
    t.toJson.toTree.child? s = (t.child? s).map fun u => u.toJson.toTree := by
  cases t with
  | array items =>
    rw [toJson, Json.toTree]
    cases s with
    | item i =>
      rw [child?_item_array, child?_item_array, Json.toList_toItems, itemsToJson_eq, List.map_map, List.getElem?_map]
      rfl
    | member name => rfl
  | object members =>
    rw [toJson_object, Json.toTree]
    cases s with
    | item i => rfl
    | member name =>
      rw [child?_member_object, child?_member_object, Json.toList_toMembers, lastNamed_map,
        lastNamed_eq_lookup (Dict.nodup_keys _), ← Dict.get?_eq_lookup, Dict.get?_ofList, lastNamed_map, Option.map_map]
      rfl
  | number n =>
    rw [child?_number, toJson]
    cases n.number? with
    | none => cases s <;> rfl
    | some v => exact child?_toTree_number v s
  | _ =>
    rw [toJson]
    · cases s <;> rfl
    all_goals simp

/-- What is written for the value of a tree has at a place what is written for what stands there in the tree. -/
theorem at?_toTree_toJson : ∀ (t : Tree) (p : Place), t.toJson.toTree.at? p = (t.at? p).map fun u => u.toJson.toTree
  | t, [] => rfl
  | t, s :: p => by
    rw [at?, at?, child?_toTree_toJson]
    cases t.child? s with
    | none => rfl
    | some u => exact at?_toTree_toJson u p

end WorkflowAugment.Tree

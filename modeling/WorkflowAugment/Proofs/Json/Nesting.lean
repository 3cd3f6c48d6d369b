import WorkflowAugment.Proofs.Json.Reordering
import WorkflowAugment.Proofs.Json.Shapes

/-!
# How deep documents are nested

A reader goes no deeper than it has room for, so what it keeps of a tree is no deeper than that (`Tree.depth_toJson_le`). How
deep the document is that is written for a value follows from its parts: `Codec.Within` bounds it, with one equivalence for
each way to build codecs, slots and layouts.
-/

namespace WorkflowAugment

/-! ## Kept values -/

namespace Tree

mutual

/-- What is kept of a tree is nested no deeper than the room that the tree was read in. -/
theorem depth_toJson_le : ∀ (t : Tree) {room : Nat}, t.fault? room = none → t.toJson.depth ≤ room
  | .array items, 0, h | .object members, 0, h => by simp [fault?] at h
  | .array items, room + 1, h => by
    rw [fault?] at h
    rw [toJson, Json.depth]
    exact Nat.succ_le_succ (Json.depthItems_le_iff.mpr (depth_itemsToJson_le items h))
  | .object members, room + 1, h => by
    rw [fault?] at h
    rw [toJson_object, Json.depth]
    refine Nat.succ_le_succ (Json.depthMembers_le_iff.mpr fun e he => ?_)
    obtain ⟨m, hm, rfl⟩ := List.mem_map.mp (Dict.mem_of_mem_ofList he)
    exact depth_membersToJson_le members h m hm
  | .number n, room, _ => by
    rw [toJson]
    cases n.number? <;> exact Nat.zero_le room
  | .absent, room, _ | .junk _, room, _ | .brokenNumber _, room, _ | .brokenString _ _, room, _ | .null, room, _
  | .bool _, room, _ | .string _, room, _ => by
    simp only [toJson]
    exact Nat.zero_le room

/-- The values of an array that fits a room are nested no deeper than the room. -/
theorem depth_itemsToJson_le : ∀ (items : Items) {room : Nat}, itemsFault? room items = none →
    ∀ x ∈ itemsToJson items, x.depth ≤ room
  | .item head tail, room, h => by
    rw [itemsFault?, Option.or_eq_none_iff] at h
    rw [itemsToJson, List.forall_mem_cons]
    exact ⟨depth_toJson_le head h.1, depth_itemsToJson_le tail h.2⟩
  | .close, _, _ | .stop _, _, _ => by simp [itemsToJson]

/-- The values of an object that fits a room are nested no deeper than the room. -/
theorem depth_membersToJson_le : ∀ (members : Members) {room : Nat}, membersFault? room members = none →
    ∀ m ∈ members.toList, m.2.toJson.depth ≤ room
  | .member name value tail, room, h => by
    rw [membersFault?] at h
    cases hname : Piece.text name with
    | error f => simp [hname] at h
    | ok s =>
      simp only [hname, Option.or_eq_none_iff] at h
      rw [Members.toList, List.forall_mem_cons]
      exact ⟨depth_toJson_le value h.1, depth_membersToJson_le tail h.2⟩
  | .close, _, _ | .stop _, _, _ | .strayName _, _, _ | .brokenName _ _, _, _ => by simp [Members.toList]

end

end Tree

/-! ## Written values -/

variable {α β τ : Type}

/-- The document that is written for a value is nested no deeper than `n`. -/
def Codec.Within (c : Codec α) (n : Nat) (a : α) : Prop := (c.write a).depth ≤ n

/-- What is written for the value of a member, if anything is, is nested no deeper than `n`. -/
def Slot.Within (s : Slot α) (n : Nat) (a : α) : Prop := ∀ v ∈ s.write a, v.depth ≤ n

/-- What is written for the values of the named members is nested no deeper than `n`. -/
def Layout.Within (l : Layout τ) (n : Nat) (x : τ) : Prop := Json.depthMembers (l.write x) ≤ n

/-- The members are nested no deeper than `n`. -/
def Extra.Within (n : Nat) (x : Extra) : Prop := ∀ e ∈ x.entries, e.2.depth ≤ n

/-- What is within a depth is within a larger one. -/
theorem Codec.Within.mono {c : Codec α} {n n' : Nat} {a : α} (h : c.Within n a) (hle : n ≤ n') : c.Within n' a :=
  Nat.le_trans h hle

theorem Slot.Within.mono {s : Slot α} {n n' : Nat} {a : α} (h : s.Within n a) (hle : n ≤ n') : s.Within n' a :=
  fun v hv => Nat.le_trans (h v hv) hle

theorem Layout.Within.mono {l : Layout τ} {n n' : Nat} {x : τ} (h : l.Within n x) (hle : n ≤ n') : l.Within n' x :=
  Nat.le_trans h hle

namespace Slot

variable {c : Codec α} {n : Nat}

@[simp] theorem within_required {a : α} : (required c).Within n a ↔ c.Within n a := by
  simp [Within, required, Codec.Within]

@[simp] theorem within_optional {o : Option α} : (optional c).Within n o ↔ ∀ a ∈ o, c.Within n a := by
  cases o <;> simp [Within, optional, Codec.Within]

/-- A member with a default is within a depth if it is left out or its value is. -/
@[simp] theorem within_default {fallback : α} {omitted : α → Bool} {a : α} :
    (default c fallback omitted).Within n a ↔ omitted a ∨ c.Within n a := by
  by_cases h : omitted a <;> simp [Within, default, Codec.Within, h]

end Slot

namespace Layout

variable {slot : Slot α} {rest : Layout β} {n : Nat} {name : String}

@[simp] theorem within_done : done.Within n () := Nat.zero_le n

/-- Members are within a depth if the first is and the others are. -/
@[simp] theorem within_field {x : α × β} :
    (field name slot rest).Within n x ↔ slot.Within n x.1 ∧ rest.Within n x.2 := by
  unfold Within Slot.Within
  cases h : slot.write x.1 with
  | none => simp [field, h]
  | some v =>
    simp only [field, h, Json.depthMembers, Option.mem_some, forall_eq']
    exact Nat.max_le

end Layout

namespace Codec

variable {c : Codec α} {n : Nat}

@[simp] theorem within_string {s : String} : string.Within n s := Nat.zero_le n

@[simp] theorem within_bool {b : Bool} : bool.Within n b := Nat.zero_le n

@[simp] theorem within_list {xs : List α} : (list c).Within (n + 1) xs ↔ ∀ x ∈ xs, c.Within n x := by
  simp [Within, list, Json.depth, Json.depthItems_le_iff]

@[simp] theorem within_dictionary {d : Dict α} : (dictionary c).Within (n + 1) d ↔ ∀ e ∈ d.entries, c.Within n e.2 := by
  simp only [Within, dictionary, Json.depth, Nat.add_le_add_iff_right, Json.depthMembers_le_iff, List.forall_mem_map]

/-- An object is one level above its named members and above what is kept beside them. -/
@[simp] theorem within_record {title : String} {layout : Layout τ} {make : τ → Extra → α} {parts : α → τ × Extra} {a : α} :
    (record title layout make parts).Within (n + 1) a ↔ layout.Within n (parts a).1 ∧ (parts a).2.Within n := by
  simp only [Within, record, Json.depth, Nat.add_le_add_iff_right, Json.depthMembers_le_iff, List.forall_mem_append,
    Layout.Within, Extra.Within]

end Codec

end WorkflowAugment

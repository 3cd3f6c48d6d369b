import WorkflowAugment.Json.Value

/-!
# Documents as they are read

A document is read from left to right, and what is wrong with it is found on the way: a text that is not JSON, or a
value of the wrong kind. `Tree` is a document as scanned, with its literals undecoded and with the place at which it
stops being JSON, if it does, so that a reader that walks the tree meets all problems in the order of the text.

A tree is read in two ways. `Tree.fault?` says what keeps it from being a JSON value and `Tree.toJson` is that value;
`Tree.skipFault?` says what keeps it from being passed over, which asks less: the range of numbers, the pairing of
surrogates and the depth do not matter there.
-/

namespace WorkflowAugment

/-- Why a text is not JSON: something stands where it must not, or the text ends too early. -/
inductive Fault where
  | malformed
  | truncated
deriving DecidableEq, Repr

/-- A part of a string literal: a character as such or by a short escape, or a 16-bit unit by its number. -/
inductive Piece where
  | char (c : Char)
  | unit (n : Nat)
deriving DecidableEq, Repr

namespace Piece

/-- The unit is the first half of a surrogate pair. -/
def isHigh (n : Nat) : Bool := 0xd800 ≤ n && n ≤ 0xdbff

/-- The unit is the second half of a surrogate pair. -/
def isLow (n : Nat) : Bool := 0xdc00 ≤ n && n ≤ 0xdfff

/-- The characters that the pieces spell, surrogates being paired. A first half at the very end has the fault `ending`:
what is wrong with the place behind the last piece. -/
def decode (ending : Fault) : List Piece → Except Fault (List Char)
  | [] => .ok []
  | .char c :: ps => (decode ending ps).map (c :: ·)
  | .unit n :: ps =>
    if isHigh n then
      match ps with
      | [] => .error ending
      | .char _ :: _ => .error .malformed
      | .unit m :: ps =>
        if isLow m then
          (decode ending ps).map (Char.ofNat (0x10000 + (n - 0xd800) * 0x400 + (m - 0xdc00)) :: ·)
        else .error .malformed
    else if isLow n then .error .malformed
    else (decode ending ps).map (Char.ofNat n :: ·)

/-- The text of a complete literal. -/
def text (ps : List Piece) : Except Fault String := (decode .malformed ps).map String.ofList

/-- What is first wrong with a literal that breaks off with a fault. -/
def brokenFault (ps : List Piece) (f : Fault) : Fault :=
  match decode f ps with
  | .error g => g
  | .ok _ => f

end Piece

mutual

/-- A scanned value. -/
inductive Tree where
  /-- The text ends where a value must stand. -/
  | absent
  /-- A character that begins no value, or a word that is none. -/
  | junk (f : Fault)
  /-- A number that lacks digits, or has one too many. -/
  | brokenNumber (f : Fault)
  /-- A string literal that is never closed. -/
  | brokenString (pieces : List Piece) (f : Fault)
  | null
  | bool (b : Bool)
  | number (n : Numeral)
  | string (pieces : List Piece)
  | array (items : Items)
  | object (members : Members)

/-- What stands in an array from some item on. -/
inductive Items where
  | close
  /-- Neither a comma nor the closing bracket follows. -/
  | stop (f : Fault)
  | item (head : Tree) (tail : Items)

/-- What stands in an object from some member on. -/
inductive Members where
  | close
  /-- Neither a comma nor the closing brace follows. -/
  | stop (f : Fault)
  /-- Something other than a string literal stands where a name must. -/
  | strayName (t : Tree)
  /-- The text ends where a name must stand, or the literal of the name breaks off. -/
  | brokenName (pieces : List Piece) (f : Fault)
  | member (name : List Piece) (value : Tree) (tail : Members)

end

instance : Inhabited Tree := ⟨.null⟩

/-- Arrays and objects may be nested this deep, the outermost counted. -/
def maxDepth : Nat := 127

namespace Tree

mutual

/-- What keeps the tree from being a value nested at most `room` deep: the first such thing in the text. -/
def fault? (room : Nat) : Tree → Option Fault
  | .absent => some .truncated
  | .junk f => some f
  | .brokenNumber f => some f
  | .brokenString ps f => some (Piece.brokenFault ps f)
  | .null => none
  | .bool _ => none
  | .number n => if n.number?.isSome then none else some .malformed
  | .string ps =>
    match Piece.text ps with
    | .error f => some f
    | .ok _ => none
  | .array items =>
    match room with
    | 0 => some .malformed
    | room + 1 => itemsFault? room items
  | .object members =>
    match room with
    | 0 => some .malformed
    | room + 1 => membersFault? room members

/-- `fault?` for the items of an array. -/
def itemsFault? (room : Nat) : Items → Option Fault
  | .close => none
  | .stop f => some f
  | .item head tail => (fault? room head).or (itemsFault? room tail)

/-- `fault?` for the members of an object. -/
def membersFault? (room : Nat) : Members → Option Fault
  | .close => none
  | .stop f => some f
  | .strayName _ => some .malformed
  | .brokenName ps f => some (Piece.brokenFault ps f)
  | .member name value tail =>
    match Piece.text name with
    | .error f => some f
    | .ok _ => (fault? room value).or (membersFault? room tail)

end

mutual

/-- What keeps the tree from being passed over. A number without its digits is malformed even at the end of the text. -/
def skipFault? : Tree → Option Fault
  | .absent => some .truncated
  | .junk f => some f
  | .brokenNumber _ => some .malformed
  | .brokenString _ f => some f
  | .array items => skipItemsFault? items
  | .object members => skipMembersFault? members
  | _ => none

/-- `skipFault?` for the items of an array. -/
def skipItemsFault? : Items → Option Fault
  | .close => none
  | .stop f => some f
  | .item head tail => (skipFault? head).or (skipItemsFault? tail)

/-- `skipFault?` for the members of an object. -/
def skipMembersFault? : Members → Option Fault
  | .close => none
  | .stop f => some f
  | .strayName _ => some .malformed
  | .brokenName _ f => some f
  | .member _ value tail => (skipFault? value).or (skipMembersFault? tail)

end

/-- The text of a name or of a string value, empty when it is none. -/
def spelled (ps : List Piece) : String := (Piece.text ps).toOption.getD ""

mutual

/-- The value of the tree. Of two members with the same name the later counts; what is no value counts as null. -/
def toJson : Tree → Json
  | .bool b => .bool b
  | .number n => n.number?.elim .null .number
  | .string ps => .string (spelled ps)
  | .array items => .array (itemsToJson items)
  | .object members => .object (membersToJson members [])
  | _ => .null

/-- The values of the items of an array. -/
def itemsToJson : Items → List Json
  | .item head tail => head.toJson :: itemsToJson tail
  | _ => []

/-- The members of an object written one after another into those read before. -/
def membersToJson : Members → List (String × Json) → List (String × Json)
  | .member name value tail, before =>
    membersToJson tail (Dict.insertEntry (spelled name) value.toJson before)
  | _, before => before

end

mutual

/-- The value of a tree is canonical. -/
theorem canonical_toJson : ∀ t : Tree, t.toJson.Canonical
  | .array items => by
    rw [toJson, Json.Canonical, Json.canonicalItems_iff]
    exact canonical_itemsToJson items
  | .object members => by
    rw [toJson, Json.Canonical, Json.canonicalMembers_iff]
    exact canonical_membersToJson members [] .nil (by simp)
  | .number n => by
    rw [toJson]
    cases n.number? <;> simp [Json.Canonical]
  | .absent | .junk _ | .brokenNumber _ | .brokenString _ _ | .null | .bool _ | .string _ => by
    simp [toJson, Json.Canonical]

/-- The values of an array that has been read are canonical. -/
theorem canonical_itemsToJson : ∀ items : Items, ∀ x ∈ itemsToJson items, x.Canonical
  | .item head tail => by
    intro x hx
    rw [itemsToJson] at hx
    rcases List.mem_cons.1 hx with rfl | hx
    · exact canonical_toJson head
    · exact canonical_itemsToJson tail x hx
  | .close | .stop _ => by simp [itemsToJson]

/-- Members that are read one after another stay sorted by name, and their values are canonical. -/
theorem canonical_membersToJson : ∀ (members : Members) (before : List (String × Json)),
    before.Pairwise (fun a b => a.1 < b.1) → (∀ e ∈ before, e.2.Canonical) →
    (membersToJson members before).Pairwise (fun a b => a.1 < b.1) ∧
      ∀ e ∈ membersToJson members before, e.2.Canonical
  | .member name value tail, before, hb, hc => by
    rw [membersToJson]
    refine canonical_membersToJson tail _ (Dict.ascending_insertEntry _ _ hb) fun e he => ?_
    rcases Dict.mem_insertEntry he with rfl | he
    · exact canonical_toJson value
    · exact hc e he
  | .close, before, hb, hc | .stop _, before, hb, hc | .strayName _, before, hb, hc
  | .brokenName _ _, before, hb, hc => by
    rw [membersToJson]
    · exact ⟨hb, hc⟩
    · simp

end

end Tree

/-- The members of an object in the order of the text, names spelled out. -/
def Members.toList : Members → List (String × Tree)
  | .member name value tail => (Tree.spelled name, value) :: tail.toList
  | _ => []

/-- The items of an array in the order of the text. -/
def Items.toList : Items → List Tree
  | .item head tail => head :: tail.toList
  | _ => []

/-- The members that carry none of the given names, as they are kept. -/
def Extra.ofMembers (named : List String) (members : List (String × Tree)) : Extra :=
  members.foldl
    (fun x m => if m.1 ∈ named then x else x.insert m.1 m.2.toJson (Tree.canonical_toJson m.2)) .empty

end WorkflowAugment

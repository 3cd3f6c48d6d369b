import WorkflowAugment.Dict
import WorkflowAugment.Number.Numeral

/-!
# JSON values

A JSON value with the members of its objects in the order they are written in. In a canonical value that order is the
ascending one, each name once, at every depth; members that a document carries beyond the known ones are kept so.
-/

namespace WorkflowAugment

/-- A JSON value. -/
inductive Json where
  | null
  | bool (b : Bool)
  | number (n : Number)
  | string (s : String)
  | array (items : List Json)
  | object (members : List (String × Json))
deriving Inhabited

namespace Json

mutual

/-- Every object in the value lists its members by ascending name, each once. -/
def Canonical : Json → Prop
  | .array items => CanonicalItems items
  | .object members => members.Pairwise (fun a b => a.1 < b.1) ∧ CanonicalMembers members
  | _ => True

/-- `Canonical` for the items of an array. -/
def CanonicalItems : List Json → Prop
  | [] => True
  | x :: xs => x.Canonical ∧ CanonicalItems xs

/-- `Canonical` for the values of the members of an object. -/
def CanonicalMembers : List (String × Json) → Prop
  | [] => True
  | (_, x) :: ms => x.Canonical ∧ CanonicalMembers ms

end

/-- The items are canonical if each is. -/
theorem canonicalItems_iff {xs : List Json} : CanonicalItems xs ↔ ∀ x ∈ xs, x.Canonical := by
  induction xs with
  | nil => simp [CanonicalItems]
  | cons x xs ih => simp [CanonicalItems, ih]

/-- The members are canonical if the value of each is. -/
theorem canonicalMembers_iff {ms : List (String × Json)} :
    CanonicalMembers ms ↔ ∀ e ∈ ms, e.2.Canonical := by
  induction ms with
  | nil => simp [CanonicalMembers]
  | cons e ms ih => simp [CanonicalMembers, ih]

end Json

/-- Members of an object that the program has no name for, kept as they are: canonical values by ascending name. -/
structure Extra where
  dict : Dict Json
  canonical : ∀ e ∈ dict.entries, e.2.Canonical

namespace Extra

/-- What is kept beside the named members is its dictionary. -/
@[ext] theorem ext {x y : Extra} (h : x.dict = y.dict) : x = y := by
  cases x; cases y; simp_all

/-- No members. -/
def empty : Extra := ⟨.empty, by simp [Dict.empty]⟩

instance : Inhabited Extra := ⟨empty⟩

/-- The members after one more is read: of two with the same name the later stands. -/
def insert (x : Extra) (name : String) (value : Json) (h : value.Canonical) : Extra where
  dict := x.dict.insert name value
  canonical := by
    intro e he
    rcases Dict.mem_insertEntry he with rfl | he
    · exact h
    · exact x.canonical e he

/-- The members by ascending name. -/
def entries (x : Extra) : List (String × Json) := x.dict.entries

/-- There are none. -/
def isEmpty (x : Extra) : Bool := x.dict.isEmpty

end Extra

end WorkflowAugment

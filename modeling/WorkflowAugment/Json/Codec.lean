import WorkflowAugment.Json.Scan
import WorkflowAugment.Json.Shape
import WorkflowAugment.Json.Writer

/-!
# Types with a JSON form

A `Codec` ties a type to the shape of its documents, to the value that a document of the shape stands for, and to the
document that is written for a value. The codec of a type with named members comes from a `Layout`, which lists the
members once, in declared order, each with a `Slot` that says what happens when it is left out.
-/

namespace WorkflowAugment

/-- How values of a type stand in documents. `value` matters only for trees without a problem. -/
structure Codec (α : Type) where
  shape : Shape
  value : Tree → α
  write : α → Json

/-- A member of an object: whether it must be there, what shape it has, its value also when it is left out, and how it
is written if it is. -/
structure Slot (α : Type) where
  mandatory : Bool
  shape : Shape
  value : Option Tree → α
  write : α → Option Json

/-- The named members of an object, whose values make up a `τ`. -/
structure Layout (τ : Type) where
  fields : Fields
  value : List (String × Tree) → τ
  write : τ → List (String × Json)

variable {α β τ : Type}

namespace Slot

/-- A member that must be there. -/
def required (c : Codec α) : Slot α where
  mandatory := true
  shape := c.shape
  value t := c.value (t.getD .absent)
  write a := some (c.write a)

/-- A member that may be left out or be null, and is left out when there is no value. -/
def optional (c : Codec α) : Slot (Option α) where
  mandatory := false
  shape := .nullable c.shape
  value
    | none => none
    | some .null => none
    | some t => some (c.value t)
  write a := a.map c.write

/-- A member with a default, left out when `omitted` says so. -/
def default (c : Codec α) (a : α) (omitted : α → Bool) : Slot α where
  mandatory := false
  shape := c.shape
  value
    | none => a
    | some t => c.value t
  write b := if omitted b then none else some (c.write b)

end Slot

namespace Layout

/-- No members. -/
def done : Layout Unit := ⟨.done, fun _ => (), fun _ => []⟩

/-- One more member in front of others. -/
def field (name : String) (slot : Slot α) (rest : Layout β) : Layout (α × β) where
  fields := .field name slot.mandatory slot.shape rest.fields
  value members := (slot.value (members.lookup name), rest.value members)
  write x :=
    match slot.write x.1 with
    | none => rest.write x.2
    | some v => (name, v) :: rest.write x.2

end Layout

namespace Codec

/-- Texts. -/
def string : Codec String where
  shape := .string
  value
    | .string ps => Tree.spelled ps
    | _ => ""
  write := .string

/-- Truth values. -/
def bool : Codec Bool where
  shape := .bool
  value
    | .bool b => b
    | _ => false
  write := .bool

/-- Lists. -/
def list (c : Codec α) : Codec (List α) where
  shape := .list c.shape
  value
    | .array items => items.toList.map c.value
    | _ => []
  write xs := .array (xs.map c.write)

/-- Dictionaries: of two members with the same name the later stands. -/
def dictionary (c : Codec α) : Codec (Dict α) where
  shape := .dictionary c.shape
  value
    | .object members => .ofList (members.toList.map fun m => (m.1, c.value m.2))
    | _ => .empty
  write d := .object (d.entries.map fun e => (e.1, c.write e.2))

/-- Objects that keep the members they have no name for. Those are written last. -/
def record (title : String) (layout : Layout τ) (make : τ → Extra → α) (parts : α → τ × Extra) : Codec α where
  shape := .record title layout.fields
  value
    | .object members => make (layout.value members.toList) (.ofMembers layout.fields.names members.toList)
    | _ => make (layout.value []) .empty
  write a := .object (layout.write (parts a).1 ++ (parts a).2.entries)

/-- Groups of settings, which drop the members they have no name for. -/
def settings (title : String) (layout : Layout τ) (make : τ → α) (parts : α → τ) : Codec α where
  shape := .settings title layout.fields
  value
    | .object members => make (layout.value members.toList)
    | .array items => make (layout.value (layout.fields.names.zip items.toList))
    | _ => make (layout.value [])
  write a := .object (layout.write (parts a))

/-- The value of a text, or the first problem with it. After the value only white space may follow. -/
def read (c : Codec α) (text : String) : Except Problem α :=
  let (tree, rest) := Tree.scan text.toList
  match c.shape.problem? maxDepth tree with
  | some p => .error p
  | none => if Tree.skipSpace rest = [] then .ok (c.value tree) else .error (.fault .malformed)

/-- The text of a value. -/
def text (c : Codec α) (isPretty : Bool) (a : α) : String := (c.write a).render isPretty

end Codec

end WorkflowAugment

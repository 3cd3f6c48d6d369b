import WorkflowAugment.Json.Tree
import WorkflowAugment.Text.Quoted

/-!
# Shapes of documents

A shape says what a document must look like to be read as a value of some kind. `Shape.problem?` walks a tree in the
order of the text and gives the first thing that is wrong with it: a fault of the text, or a value that does not fit.
-/

namespace WorkflowAugment

/-- What a value is that was found where another kind was wanted. -/
inductive Found where
  | null
  | bool (b : Bool)
  | number (n : Number)
  | string (s : String)
  | sequence
  | map

/-- How a message names what was found. -/
def Found.describe : Found → String
  | .null => "null"
  | .bool b => if b then "boolean `true`" else "boolean `false`"
  | .number (.integer i h) => "integer `" ++ String.ofList (Number.integer i h).render ++ "`"
  | .number (.double x) => "floating point `" ++ String.ofList x.render ++ "`"
  | .string s => "string " ++ Text.quoted s
  | .sequence => "sequence"
  | .map => "map"

/-- What kind of value is wanted. -/
inductive Wanted where
  | string
  | bool
  | sequence
  | map
  | unit
  | struct (title : String)

/-- How a message names what is wanted. -/
def Wanted.describe : Wanted → String
  | .string => "a string"
  | .bool => "a boolean"
  | .sequence => "a sequence"
  | .map => "a map"
  | .unit => "unit"
  | .struct title => "struct " ++ title

/-- Why a document cannot be read. -/
inductive Problem where
  | fault (f : Fault)
  | wrongType (found : Found) (wanted : Wanted)
  | missingMember (name : String)
  | repeatedMember (name : String)
  | unknownVariant (name : String) (variants : List String)
  | rejected (complaint : String)

/-- Names in backquotes with "or" between them. -/
def Problem.alternatives : List String → String
  | [] => ""
  | [n] => "`" ++ n ++ "`"
  | n :: ns => "`" ++ n ++ "` or " ++ alternatives ns

/-- The text of a problem with the data; a fault of the text has none. -/
def Problem.message? : Problem → Option String
  | .fault _ => none
  | .wrongType found wanted => some ("invalid type: " ++ found.describe ++ ", expected " ++ wanted.describe)
  | .missingMember name => some ("missing field `" ++ name ++ "`")
  | .repeatedMember name => some ("duplicate field `" ++ name ++ "`")
  | .unknownVariant name variants =>
    some ("unknown variant `" ++ name ++ "`, expected " ++ alternatives variants)
  | .rejected complaint => some complaint

namespace Tree

/-- What the tree is, as far as that has to be read to tell. -/
def found : Tree → Except Fault Found
  | .absent => .error .truncated
  | .junk f => .error f
  | .brokenNumber f => .error f
  | .brokenString ps f => .error (Piece.brokenFault ps f)
  | .null => .ok .null
  | .bool b => .ok (.bool b)
  | .number n => n.number?.elim (.error .malformed) fun v => .ok (.number v)
  | .string ps => (Piece.text ps).map .string
  | .array _ => .ok .sequence
  | .object _ => .ok .map

/-- The tree is not of the wanted kind: its own fault, or that it is something else. -/
def mismatch (wanted : Wanted) (t : Tree) : Problem :=
  match t.found with
  | .error f => .fault f
  | .ok found => .wrongType found wanted

/-- The fault of a tree as a problem. -/
def anyProblem? (room : Nat) (t : Tree) : Option Problem := (t.fault? room).map .fault

/-- The fault of a tree that is passed over, as a problem. -/
def skipProblem? (t : Tree) : Option Problem := t.skipFault?.map .fault

/-- What keeps the tree from being a text that passes `check`, which gives a complaint about one that does not. -/
def stringProblem? (check : String → Option String) : Tree → Option Problem
  | .string ps =>
    match Piece.text ps with
    | .error f => some (.fault f)
    | .ok s => (check s).map .rejected
  | t => some (t.mismatch .string)

/-- What keeps the tree from being a truth value. -/
def boolProblem? : Tree → Option Problem
  | .bool _ => none
  | t => some (t.mismatch .bool)

/-- What keeps the tree from being one of the named variants: their names stand for them, and so does an object with
the name as its only member and null as the value. -/
def variantProblem? (variants : List String) (room : Nat) : Tree → Option Problem
  | .absent => some (.fault .truncated)
  | .brokenString ps f => some (.fault (Piece.brokenFault ps f))
  | .string ps =>
    match Piece.text ps with
    | .error f => some (.fault f)
    | .ok s => if s ∈ variants then none else some (.unknownVariant s variants)
  | .object members =>
    if room = 0 then some (.fault .malformed)
    else match members with
    | .close => some (.fault .malformed)
    | .stop f => some (.fault f)
    | .strayName _ => some (.fault .malformed)
    | .brokenName ps f => some (.fault (Piece.brokenFault ps f))
    | .member name value tail =>
      match Piece.text name with
      | .error f => some (.fault f)
      | .ok s =>
        if s ∉ variants then some (.unknownVariant s variants)
        else match value, tail with
        | .null, .close => none
        | .null, .stop f => some (.fault f)
        | .null, _ => some (.fault .malformed)
        | value, _ => some (value.mismatch .unit)
  | _ => some (.fault .malformed)

end Tree

/-- The first problem of the items of an array when each is read by `read`. -/
def Items.problem? (read : Tree → Option Problem) : Items → Option Problem
  | .close => none
  | .stop f => some (.fault f)
  | .item head tail => (read head).or (tail.problem? read)

/-- The first problem of the members of an object. `known` says how a member with a name of its own is read, which may
occur once only, `other` how any other one is; `atEnd` looks at the names met once the object is closed. -/
def Members.problem? (known : String → Option (Tree → Option Problem)) (other : Tree → Option Problem)
    (atEnd : List String → Option Problem) : List String → Members → Option Problem
  | met, .close => atEnd met
  | _, .stop f => some (.fault f)
  | _, .strayName _ => some (.fault .malformed)
  | _, .brokenName ps f => some (.fault (Piece.brokenFault ps f))
  | met, .member name value tail =>
    match Piece.text name with
    | .error f => some (.fault f)
    | .ok s =>
      match known s with
      | none => (other value).or (tail.problem? known other atEnd met)
      | some read =>
        if s ∈ met then some (.repeatedMember s)
        else (read value).or (tail.problem? known other atEnd (s :: met))

mutual

/-- What a document must look like. -/
inductive Shape where
  | string
  | bool
  /-- A text about which the function has no complaint. -/
  | checked (check : String → Option String)
  /-- One of the named variants. -/
  | variant (names : List String)
  /-- Null, or a value of the shape. -/
  | nullable (shape : Shape)
  /-- An array of values of the shape. -/
  | list (shape : Shape)
  /-- An object whose members have any names and values of the shape. -/
  | dictionary (shape : Shape)
  /-- An object with the fields; members with other names may have any value. -/
  | record (title : String) (fields : Fields)
  /-- An object with the fields, in which other members are passed over, or an array of the fields in order, of which
  the last ones may be left out. -/
  | settings (title : String) (fields : Fields)

/-- The members that a record or a group of settings has names for, in declared order. -/
inductive Fields where
  | done
  | field (name : String) (mandatory : Bool) (shape : Shape) (rest : Fields)

end

/-- The names of the fields. -/
def Fields.names : Fields → List String
  | .done => []
  | .field name _ _ rest => name :: rest.names

/-- The names of the fields that must not be left out. -/
def Fields.mandatory : Fields → List String
  | .done => []
  | .field name mandatory _ rest => if mandatory then name :: rest.mandatory else rest.mandatory

/-- The first field that must not be left out and is. -/
def Fields.missing? (fields : Fields) (met : List String) : Option Problem :=
  (fields.mandatory.find? (· ∉ met)).map .missingMember

mutual

/-- The first problem of a tree that is to have the shape and be nested at most `room` deep. -/
def Shape.problem? : Shape → Nat → Tree → Option Problem
  | .string, _, t => t.stringProblem? fun _ => none
  | .bool, _, t => t.boolProblem?
  | .checked check, _, t => t.stringProblem? check
  | .variant names, room, t => t.variantProblem? names room
  | .nullable shape, room, t =>
    match t with
    | .null => none
    | t => shape.problem? room t
  | .list shape, room, t =>
    match t, room with
    | .array _, 0 => some (.fault .malformed)
    | .array items, room + 1 => items.problem? (shape.problem? room)
    | t, _ => some (t.mismatch .sequence)
  | .dictionary shape, room, t =>
    match t, room with
    | .object _, 0 => some (.fault .malformed)
    | .object members, room + 1 =>
      members.problem? (fun _ => none) (shape.problem? room) (fun _ => none) []
    | t, _ => some (t.mismatch .map)
  | .record title fields, room, t =>
    match t, room with
    | .object _, 0 => some (.fault .malformed)
    | .object members, room + 1 =>
      members.problem? (fields.reading? room) (Tree.anyProblem? room) fields.missing? []
    | t, _ => some (t.mismatch (.struct title))
  | .settings title fields, room, t =>
    match t, room with
    | .object _, 0 => some (.fault .malformed)
    | .object members, room + 1 =>
      members.problem? (fields.reading? room) Tree.skipProblem? (fun _ => none) []
    | .array _, 0 => some (.fault .malformed)
    | .array items, room + 1 => fields.positionalProblem? room items
    | t, _ => some (t.mismatch (.struct title))

/-- How the field of a name is read, if there is one. -/
def Fields.reading? : Fields → Nat → String → Option (Tree → Option Problem)
  | .done, _, _ => none
  | .field name _ shape rest, room, s =>
    if s = name then some (shape.problem? room) else rest.reading? room s

/-- The first problem of fields given by position. -/
def Fields.positionalProblem? : Fields → Nat → Items → Option Problem
  | _, _, .close => none
  | _, _, .stop f => some (.fault f)
  | .done, _, .item _ _ => some (.fault .malformed)
  | .field _ _ shape rest, room, .item head tail =>
    (shape.problem? room head).or (rest.positionalProblem? room tail)

end

end WorkflowAugment

import WorkflowAugment.Log.FieldTest
import WorkflowAugment.Text.Utf8

/-!
# Log filters

A filter is a list of directives, written with commas between them. A directive has the form
`target[span` followed by the test of a field in braces, then `]=level`, and every part may be left out. It says up to
which level records are let through whose target begins with the given one, everywhere or inside of such spans.

A directive is taken apart by the positions of its marks in the text without the white space around it, but the parts
are cut out of the text as it stands at these positions, so white space in front shifts what is cut out.
-/

namespace WorkflowAugment

/-- Why a text is no filter. -/
inductive FilterError where
  | directive
  | level
  | field (cause : Pattern.ReadError)
deriving DecidableEq

/-- The text of the error. -/
def FilterError.message : FilterError → String
  | .directive => "invalid filter directive"
  | .level =>
    "error parsing level filter: expected one of \"off\", \"error\", \"warn\", \"info\", \"debug\", \"trace\", " ++
      "or a number 0-5"
  | .field .malformed => "invalid field filter: error building NFA"
  | .field .unicodeWord =>
    "invalid field filter: unsupported regex feature for DFAs: cannot build DFAs for regexes with Unicode word " ++
      "boundaries; switch to ASCII word boundaries, or heuristically enable Unicode word boundaries or use a " ++
      "different regex engine"

/-- One directive of a filter. -/
structure Directive where
  target : Option String
  span : Option String
  field : Option FieldTest
  limit : Limit
deriving DecidableEq

namespace Directive

/-- The text behind so many octets. -/
def dropOctets : Nat → List Char → List Char
  | 0, s => s
  | _, [] => []
  | n + 1, c :: s => dropOctets (n + 1 - c.utf8Size) s

/-- So many octets of the text. -/
def takeOctets : Nat → List Char → List Char
  | 0, _ => []
  | _, [] => []
  | n + 1, c :: s => c :: takeOctets (n + 1 - c.utf8Size) s

/-- The `length` octets of a text behind the first `start`. -/
def cut (s : List Char) (start length : Nat) : List Char := takeOctets length (dropOctets start s)

/-- The level at the end of a directive; without a text it is the least important one. -/
def levelAt (piece : List Char) (start : Nat) : Except FilterError Limit :=
  match dropOctets start piece with
  | [] => .ok (some .trace)
  | s => match Limit.ofText? s with
    | some l => .ok l
    | none => .error .level

/-- What may follow the bracket that closes a span, at an offset: nothing, or a level. -/
def afterSpan (piece : List Char) (d : Directive) (offset : Nat) : List Char → Except FilterError Directive
  | [] => .ok d
  | '=' :: _ => (levelAt piece (offset + 1)).map fun l => { d with limit := l }
  | _ => .error .directive

/-- The part of a directive behind an opening bracket, at an offset: the name of a span, then the test of a field in
braces. -/
def ofSpan (piece : List Char) (target : Option String) (offset : Nat) (s : List Char) :
    Except FilterError Directive :=
  let name := s.takeWhile fun c => c ≠ ']' && c ≠ '{'
  let span := String.ofList (cut piece offset (Text.Utf8.size name))
  match s.dropWhile fun c => c ≠ ']' && c ≠ '{' with
  | ']' :: rest => afterSpan piece ⟨target, some span, none, some .trace⟩ (offset + Text.Utf8.size name + 1) rest
  | '{' :: rest =>
    let field := rest.takeWhile (· ≠ '}')
    let start := offset + Text.Utf8.size name + 1
    let text := cut piece start (Text.Utf8.size field)
    match rest.dropWhile (· ≠ '}') with
    | '}' :: rest =>
      if text = [] then .error .directive
      else
        match FieldTest.ofText text, rest with
        | .error e, _ => .error (.field e)
        | .ok test, ']' :: rest =>
          afterSpan piece ⟨target, if span = "" then none else some span, some test, some .trace⟩
            (start + Text.Utf8.size field + 2) rest
        | .ok _, _ => .error .directive
    | _ => .error .directive
  | _ => .error .directive

/-- A directive may begin with this character. -/
def mayStart (c : Char) : Bool := c = '-' || c = ':' || c = '_' || Text.isAlphanumeric c

/-- The directive that a text stands for. A text without marks is a level if it names one and else a target. -/
def ofText (piece : List Char) : Except FilterError Directive :=
  match Text.trim piece with
  | [] => .error .directive
  | c :: s =>
    if c = '[' then ofSpan piece none 1 s
    else if !mayStart c then .error .directive
    else
      let head := (c :: s).takeWhile fun c => c ≠ '=' && c ≠ '['
      let target := some (String.ofList (cut piece 0 (Text.Utf8.size head)))
      match (c :: s).dropWhile fun c => c ≠ '=' && c ≠ '[' with
      | '=' :: _ => (levelAt piece (Text.Utf8.size head + 1)).map fun l => ⟨target, none, none, l⟩
      | '[' :: rest => ofSpan piece target (Text.Utf8.size head + 1) rest
      | _ => match Limit.ofText? piece with
        | some l => .ok ⟨none, none, none, l⟩
        | none => .ok ⟨some (String.ofList piece), none, none, some .trace⟩

/-- A field is asked to have a certain value. -/
def asksForValue (d : Directive) : Bool := d.field.any (·.value.isSome)

/-- The target of the directive begins the given one. -/
def covers (d : Directive) (target : String) : Bool := d.target.all fun t => t.toList.isPrefixOf target.toList

end Directive

/-- A filter as a list of directives. -/
abbrev Filter : Type := List Directive

namespace Filter

/-- The directives between the commas of a text, empty pieces left out. -/
def ofText (s : String) : Except FilterError Filter :=
  ((Text.split ',' s.toList).filter (· ≠ [])).mapM Directive.ofText

/-- The least important level that some directive lets through. A directive that asks for the value of a field lets all
levels through, as its records are not known before. -/
def widest (f : Filter) : Limit :=
  if f.any Directive.asksForValue then some .trace
  else f.foldl (fun l d => if l.rank < d.limit.rank then d.limit else l) none

end Filter

end WorkflowAugment

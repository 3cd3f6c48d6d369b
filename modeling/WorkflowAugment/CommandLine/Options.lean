import WorkflowAugment.Text.Split
import WorkflowAugment.Text.Utf8

/-!
# The arguments of the command

Arguments are octets and are taken from left to right. The first thing that settles the matter wins: a request for help
or for the version, or a fault. Behind `--` every argument is an input.
-/

namespace WorkflowAugment.CommandLine

/-- An argument as the system hands it over. -/
abbrev Octets : Type := List UInt8

/-- The octets of a text. -/
def octetsOf (s : String) : Octets := s.toUTF8.toList

/-- What the command is asked to do with a workflow. -/
structure Options where
  input : Option Octets
  root : String
  exitTemplate : Option String
  isPretty : Bool
deriving DecidableEq

/-- What the arguments amount to. -/
inductive Request where
  | run (options : Options)
  | help (long : Bool)
  | version
  | misuse
deriving DecidableEq

/-- The options met so far. -/
structure Draft where
  input : Option Octets
  root : Option String
  exitTemplate : Option String
  isPretty : Bool

namespace Draft

/-- Nothing met yet. -/
def empty : Draft := ⟨none, none, none, false⟩

/-- The request once all arguments are taken. The identifier of the root must be among them. -/
def finish (d : Draft) : Request :=
  match d.root with
  | none => .misuse
  | some root => .run ⟨d.input, root, d.exitTemplate, d.isPretty⟩

/-- One input more: there is at most one, and its name is not empty. -/
def addInput (d : Draft) (a : Octets) : Option Draft :=
  if d.input.isSome ∨ a = [] then none else some { d with input := some a }

/-- The options that take a value. -/
inductive Valued where
  | root
  | exitTemplate

/-- A value for an option: a text, given once. -/
def addValue (d : Draft) (option : Valued) (value : Octets) : Option Draft :=
  match option, Text.Utf8.decode? value with
  | _, none => none
  | .root, some s => if d.root.isSome then none else some { d with root := some s }
  | .exitTemplate, some s => if d.exitTemplate.isSome then none else some { d with exitTemplate := some s }

end Draft

/-- An argument by its form. -/
inductive Form where
  /-- Nothing but two dashes. -/
  | divider
  /-- A name behind two dashes and, behind an equals sign, a value. -/
  | long (name : Octets) (value : Option Octets)
  /-- Something behind one dash, of which the first octet counts. -/
  | short (first : UInt8)
  /-- Anything else, the lone dash among it. -/
  | plain

/-- The form of an argument. -/
def Form.of : Octets → Form
  | 45 :: 45 :: [] => .divider
  | 45 :: 45 :: rest =>
    let name := rest.takeWhile (· ≠ 61)
    .long name (match rest.dropWhile (· ≠ 61) with
      | [] => none
      | _ :: value => some value)
  | 45 :: first :: _ => .short first
  | _ => .plain

/-- Only plain arguments can be the value of the option before them. -/
def Form.isPlain : Form → Bool
  | .plain => true
  | _ => false

/-- The request of arguments behind the divider. -/
def inputsOnly : Draft → List Octets → Request
  | d, [] => d.finish
  | d, a :: rest =>
    match d.addInput a with
    | none => .misuse
    | some d => inputsOnly d rest

/-- The option of a name that takes a value. -/
def valued? (name : Octets) : Option Draft.Valued :=
  if name = octetsOf "root-dag-id" then some .root
  else if name = octetsOf "exit-template" then some .exitTemplate
  else none

/-- The request of the arguments from some place on. -/
def requestFrom : Draft → List Octets → Request
  | d, [] => d.finish
  | d, a :: rest =>
    match Form.of a with
    | .divider => inputsOnly d rest
    | .plain =>
      match d.addInput a with
      | none => .misuse
      | some d => requestFrom d rest
    | .short first => if first = 104 then .help false else if first = 86 then .version else .misuse
    | .long name value =>
      match valued? name with
      | some option =>
        match value, rest with
        | some v, rest =>
          match d.addValue option v with
          | none => .misuse
          | some d => requestFrom d rest
        | none, [] => .misuse
        | none, v :: rest =>
          if (Form.of v).isPlain then
            match d.addValue option v with
            | none => .misuse
            | some d => requestFrom d rest
          else .misuse
      | none =>
        if value.isSome then .misuse
        else if name = octetsOf "help" then .help true
        else if name = octetsOf "version" then .version
        else if name = octetsOf "pretty" ∧ !d.isPretty then requestFrom { d with isPretty := true } rest
        else .misuse

/-- What the arguments amount to. -/
def request (args : List Octets) : Request := requestFrom .empty args

/-- The input names the standard input: there is none, or it is the lone dash, of which slashes and dots behind it make
the same path. -/
def isStandardInput : Option Octets → Bool
  | none => true
  | some path =>
    match Text.split '/' (Text.Utf8.decodeLossy path).toList with
    | first :: rest => first = ['-'] && rest.all fun s => s = [] || s = ['.']
    | [] => false

end WorkflowAugment.CommandLine

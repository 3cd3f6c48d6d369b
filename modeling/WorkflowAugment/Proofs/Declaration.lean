import WorkflowAugment.Proofs.Documents

/-!
# What a workflow document is declared to be

Each type of a workflow document is declared as a list of members (`Kind.members`). What is acceptable as a value of it is said
of JSON values alone, without the reader (`Acceptable`), and so is what it means that nothing is wrong with a value but required
members that one object in it lacks (`Lacks`).
-/

namespace WorkflowAugment

/-! ## What is declared -/

/-- What a value is to be. -/
inductive Want where
  | text
  | flag
  /-- Null, or what is wanted. -/
  | nullable (w : Want)
  /-- An array of such values. -/
  | list (w : Want)
  /-- An object with the members of a type. -/
  | object (k : Kind)
  /-- An object of hooks by event. -/
  | hooks

/-- A member that a type has a name for. -/
structure Member where
  name : String
  isRequired : Bool
  want : Want

namespace Member

/-- A member that must be there. -/
def required (name : String) (want : Want) : Member := ⟨name, true, want⟩

/-- A member that may be left out. -/
def free (name : String) (want : Want) : Member := ⟨name, false, want⟩

end Member

namespace Kind

/-- The members that a type has names for, in declared order. Hooks have none: every member is an event. -/
def members : Kind → List Member
  | workflow => [.required "entrypoint" .text, .free "templates" (.list (.object template))]
  | template => [.required "name" .text, .free "container" (.nullable (.object container)),
      .free "volumes" (.list (.object volume)), .free "dag" (.nullable (.object dag))]
  | container => [.required "image" .text, .free "command" (.list .text), .free "args" (.list .text),
      .free "env" (.list (.object envVar)), .free "envFrom" (.list (.object envFromSource)),
      .free "volumeMounts" (.list (.object volumeMount))]
  | dag => [.free "tasks" (.list (.object task))]
  | task => [.required "name" .text, .required "template" .text, .free "depends" (.nullable .text),
      .free "arguments" (.object arguments), .free "hooks" .hooks]
  | arguments => [.free "parameters" (.list (.object parameter))]
  | parameter => [.required "name" .text, .free "value" (.nullable .text)]
  | hook => [.required "template" .text, .free "arguments" (.object arguments)]
  | hooks => []
  | envVar => [.required "name" .text, .free "value" (.nullable .text),
      .free "valueFrom" (.nullable (.object envVarSource))]
  | envVarSource => [.free "fieldRef" (.nullable (.object fieldSelector))]
  | fieldSelector => [.required "fieldPath" .text]
  | envFromSource => [.free "configMapRef" (.nullable (.object configMapSource))]
  | configMapSource => [.required "name" .text, .free "optional" (.nullable .flag)]
  | volume => [.required "name" .text, .free "secret" (.nullable (.object secretSource))]
  | secretSource => [.required "secretName" .text]
  | volumeMount => [.required "name" .text, .required "mountPath" .text]

/-- No member with a name of its own is repeated. -/
def Once (k : Kind) (ms : List (String × Json)) : Prop := ∀ f ∈ k.members, (ms.map (·.1)).count f.name ≤ 1

/-- The members that must be there are. -/
def Present (k : Kind) (ms : List (String × Json)) : Prop := ∀ f ∈ k.members, f.isRequired → f.name ∈ ms.map (·.1)

/-- What a value of the type is to be. -/
def want : Kind → Want
  | hooks => .hooks
  | k => .object k

end Kind

/-- The value is what is wanted. An object may have any members besides the named ones, and any number of them. -/
inductive Acceptable : Want → Json → Prop
  | text (s : String) : Acceptable .text (.string s)
  | flag (b : Bool) : Acceptable .flag (.bool b)
  | null {w : Want} : Acceptable (.nullable w) .null
  | value {w : Want} {x : Json} (h : Acceptable w x) : Acceptable (.nullable w) x
  | list {w : Want} {xs : List Json} (h : ∀ x ∈ xs, Acceptable w x) : Acceptable (.list w) (.array xs)
  | hooks {ms : List (String × Json)} (h : ∀ m ∈ ms, Acceptable (.object .hook) m.2) : Acceptable .hooks (.object ms)
  | object {k : Kind} {ms : List (String × Json)} (honce : k.Once ms) (hpresent : k.Present ms)
    (hnamed : ∀ f ∈ k.members, ∀ m ∈ ms, m.1 = f.name → Acceptable f.want m.2) : Acceptable (.object k) (.object ms)

/-- The value is what is wanted but for one object in it, which lacks required members, the first of which in declared order
has the name. -/
inductive Lacks : Want → Json → String → Prop
  | value {w : Want} {x : Json} {name : String} (h : Lacks w x name) : Lacks (.nullable w) x name
  | item {w : Want} {before after : List Json} {x : Json} {name : String} (h : Lacks w x name)
    (hothers : ∀ y ∈ before ++ after, Acceptable w y) : Lacks (.list w) (.array (before ++ x :: after)) name
  | event {before after : List (String × Json)} {m : String × Json} {name : String} (h : Lacks (.object .hook) m.2 name)
    (hothers : ∀ m ∈ before ++ after, Acceptable (.object .hook) m.2) : Lacks .hooks (.object (before ++ m :: after)) name
  | member {k : Kind} {before after : List (String × Json)} {m : String × Json} {g : Member} {name : String}
    (hg : g ∈ k.members) (hm : m.1 = g.name) (h : Lacks g.want m.2 name) (honce : k.Once (before ++ m :: after))
    (hpresent : k.Present (before ++ m :: after))
    (hothers : ∀ f ∈ k.members, ∀ m ∈ before ++ after, m.1 = f.name → Acceptable f.want m.2) :
    Lacks (.object k) (.object (before ++ m :: after)) name
  | here {k : Kind} {ms : List (String × Json)} {g : Member}
    (hfirst : k.members.find? (fun f => f.isRequired ∧ f.name ∉ ms.map (·.1)) = some g) (honce : k.Once ms)
    (hnamed : ∀ f ∈ k.members, ∀ m ∈ ms, m.1 = f.name → Acceptable f.want m.2) : Lacks (.object k) (.object ms) g.name

/-- Null lacks nothing. -/
theorem Lacks.ne_null {w : Want} {x : Json} {name : String} (h : Lacks w x name) : x ≠ .null := by
  induction h with
  | value _ ih => exact ih
  | _ => nofun

end WorkflowAugment

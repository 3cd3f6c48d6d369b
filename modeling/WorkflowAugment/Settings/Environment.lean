/-!
# The environment

Settings are looked up by name. A variable that is set to the empty text mostly counts as unset.
-/

namespace WorkflowAugment

/-- The value of a variable of the environment, if it is set. -/
abbrev Environment : Type := String → Option String

/-- A text that counts as absent when it is empty. -/
def nonempty? (s : String) : Option String := if s = "" then none else some s

/-- The value of a variable that is set to something. -/
def Environment.nonempty? (env : Environment) (name : String) : Option String :=
  (env name).bind WorkflowAugment.nonempty?

end WorkflowAugment

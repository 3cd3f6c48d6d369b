import WorkflowAugment.Directory
import WorkflowAugment.Json.Codec
import WorkflowAugment.Settings.Environment
import WorkflowAugment.Text.Blank
import WorkflowAugment.Text.Quoted

/-!
# What to augment with

The settings of an augmentation: whether the pipeline service is called over TLS, the CA bundle to inject, and the
template that handles the end of every task. They are resolved once, from the environment or from a document.
-/

namespace WorkflowAugment

/-- The variable that says whether TLS is used. -/
def tlsVariable : String := "ML_PIPELINE_TLS_ENABLED"

/-- The variable with the path of the CA bundle in a container. -/
def bundlePathVariable : String := "CABUNDLE_PATH"

/-- The variable with the name of the secret that holds the CA bundle. -/
def bundleSecretVariable : String := "CABUNDLE_SECRET_NAME"

/-- The variable with the name of the exit template. -/
def exitTemplateVariable : String := "PIPEC_EXIT_TEMPLATE"

/-- A variable does not hold a truth value. -/
structure UnreadableSetting where
  name : String
  raw : String
deriving DecidableEq

/-- The text of the error. -/
def UnreadableSetting.message (e : UnreadableSetting) : String :=
  "cannot parse " ++ e.name ++ "=" ++ Text.quoted e.raw ++ " as a boolean"

/-- The truth value that a text spells, in capitals or small letters of ASCII. White space is not passed over. -/
def truthValue? (raw : String) : Option Bool :=
  let s := Text.lowerAscii raw.toList
  if s = ['1'] ∨ s = ['t'] ∨ s = ['t', 'r', 'u', 'e'] then some true
  else if s = ['0'] ∨ s = ['f'] ∨ s = ['f', 'a', 'l', 's', 'e'] then some false
  else none

/-- Whether the pipeline service is called over TLS. -/
inductive TlsPolicy where
  | disabled
  | enabled
deriving DecidableEq, Inhabited

namespace TlsPolicy

/-- The policy that a truth value stands for. -/
def ofBool (b : Bool) : TlsPolicy := if b then .enabled else .disabled

/-- TLS is used. -/
def isEnabled : TlsPolicy → Bool
  | .enabled => true
  | .disabled => false

/-- The name of the policy. -/
def name : TlsPolicy → String
  | .disabled => "disabled"
  | .enabled => "enabled"

/-- The policy that a text spells as a truth value. -/
def ofText (raw : String) : Except UnreadableSetting TlsPolicy :=
  match truthValue? raw with
  | some b => .ok (ofBool b)
  | none => .error ⟨tlsVariable, raw⟩

/-- The policy that the environment asks for; none is used if the variable is unset or empty. -/
def ofEnvironment (env : Environment) : Except UnreadableSetting TlsPolicy :=
  match env.nonempty? tlsVariable with
  | none => .ok .disabled
  | some raw => ofText raw

/-- The document of a policy. -/
def codec : Codec TlsPolicy where
  shape := .variant ["disabled", "enabled"]
  value
    | .string ps => ofBool (Tree.spelled ps = "enabled")
    | .object (.member name _ _) => ofBool (Tree.spelled name = "enabled")
    | _ => .disabled
  write p := .string p.name

end TlsPolicy

/-- Where the CA bundle comes from and where it is put. Without the name of a secret there is no bundle. -/
structure CaBundle where
  path : String
  secretName : String
deriving DecidableEq, Inhabited

namespace CaBundle

/-- There is a bundle to inject. -/
def isConfigured (b : CaBundle) : Bool := b.secretName ≠ ""

/-- The directory that the secret is mounted at. -/
def mountDirectory (b : CaBundle) : String := directoryOf b.path

/-- The document of a bundle. -/
def codec : Codec CaBundle :=
  .settings "CaBundle"
    (.field "path" (.default .string "" fun _ => false) <|
      .field "secretName" (.default .string "" fun _ => false) .done)
    (fun (path, secretName, _) => ⟨path, secretName⟩)
    fun b => (b.path, b.secretName, ())

end CaBundle

/-- The settings of an augmentation. -/
structure AugmentSettings where
  tls : TlsPolicy
  bundle : CaBundle
  exit : Option String
deriving DecidableEq, Inhabited

namespace AugmentSettings

/-- The settings in the environment. Only the policy can be unreadable; all else is taken as it is. -/
def ofEnvironment (env : Environment) : Except UnreadableSetting AugmentSettings := do
  let tls ← TlsPolicy.ofEnvironment env
  return {
    tls
    bundle := ⟨(env bundlePathVariable).getD "", (env bundleSecretVariable).getD ""⟩
    exit := env.nonempty? exitTemplateVariable }

/-- The settings with another exit template; an empty name means none. -/
def withExitTemplate (s : AugmentSettings) (template : String) : AugmentSettings :=
  { s with exit := nonempty? template }

/-- The name of the exit template, empty when tasks get no exit hooks. -/
def exitTemplate (s : AugmentSettings) : String := s.exit.getD ""

/-- The document of the settings. -/
def codec : Codec AugmentSettings :=
  .settings "AugmentConfig"
    (.field "tls" (.default TlsPolicy.codec .disabled fun _ => false) <|
      .field "caBundle" (.default CaBundle.codec default fun _ => false) <|
      .field "exitTemplate" (.optional .string) .done)
    (fun (tls, bundle, exit, _) => ⟨tls, bundle, exit⟩)
    fun s => (s.tls, s.bundle, s.exit, ())

end AugmentSettings

end WorkflowAugment

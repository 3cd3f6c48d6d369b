import Mathlib.Data.List.Forall2
import WorkflowAugment.Augment.Injection

/-!
# What the environment settles

Of the settings of an augmentation only the policy for TLS can be unreadable (`AugmentSettings.ofEnvironment_eq_error_iff`).
Otherwise they are what the variables hold, an exit template without a name counts as none, and the last of any number of
overrides takes the place of what the environment says (`AugmentSettings.ofEnvironment_resolves`).
-/

namespace WorkflowAugment

/-! ## Small letters -/

namespace Text

/-- A capital of ASCII and its small letter 32 places on, or any other character and itself, whatever its script. -/
def Small (c d : Char) : Prop := if 'A' ≤ c ∧ c ≤ 'Z' then d.toNat = c.toNat + 32 else d = c

/-- To make a character small is to go to its small letter, if it is a capital of ASCII. -/
theorem toLower_eq_iff {c d : Char} : c.toLower = d ↔ Small c d := by
  rw [Small]
  by_cases h : 'A' ≤ c ∧ c ≤ 'Z'
  · have hrange : 65 ≤ c.toNat ∧ c.toNat ≤ 90 := h
    have hlower : c.toLower.toNat = c.toNat + 32 := by
      have hadd : c.toLower.toNat = (c.toNat + 32) % 2 ^ 32 := congrArg Char.toNat (dif_pos h)
      omega
    rw [if_pos h, ← hlower, Char.toNat_inj, eq_comm]
  · have hlower : c.toLower = c := dif_neg h
    rw [if_neg h, hlower, eq_comm]

/-- Making letters small goes character by character and touches the capitals of ASCII only. -/
theorem lowerAscii_eq_iff {s t : List Char} : lowerAscii s = t ↔ List.Forall₂ Small s t := by
  rw [lowerAscii, ← List.forall₂_eq_eq_eq, List.forall₂_map_left_iff]
  simp only [toLower_eq_iff]

end Text

/-! ## Truth values -/

/-- The words for a truth value. -/
def truthWords : Bool → List String
  | true => ["1", "t", "true"]
  | false => ["0", "f", "false"]

/-- A text spells a truth value if it is a word for it once its capitals are made small. -/
def Spells (raw : String) (b : Bool) : Prop := ∃ word ∈ truthWords b, Text.lowerAscii raw.toList = word.toList

/-- A text has the truth value that it spells. -/
theorem truthValue?_eq_some_iff {raw : String} {b : Bool} : truthValue? raw = some b ↔ Spells raw b := by
  have hwords : Spells raw b ↔
      Text.lowerAscii raw.toList = (if b then ['1'] else ['0']) ∨ Text.lowerAscii raw.toList = (if b then ['t'] else ['f']) ∨
        Text.lowerAscii raw.toList = if b then ['t', 'r', 'u', 'e'] else ['f', 'a', 'l', 's', 'e'] := by
    cases b <;> simp [Spells, truthWords]
  rw [hwords, truthValue?]
  generalize Text.lowerAscii raw.toList = s
  cases b <;> grind

/-- A text that spells no truth value has none. -/
theorem truthValue?_eq_none_iff {raw : String} : truthValue? raw = none ↔ ∀ b, ¬Spells raw b := by
  simp only [← truthValue?_eq_some_iff, Option.eq_none_iff_forall_ne_some, ne_eq]

/-! ## What counts as set -/

/-- A text counts as set unless it is empty. -/
theorem nonempty?_eq_filter (s : String) : nonempty? s = (some s).filter (· ≠ "") := by
  by_cases h : s = "" <;> simp [nonempty?, Option.filter, h]

/-- A variable counts as set unless it is empty. -/
theorem Environment.nonempty?_eq_filter (env : Environment) (name : String) :
    env.nonempty? name = (env name).filter (· ≠ "") := by
  rw [nonempty?]
  cases env name with
  | none => rfl
  | some s => exact WorkflowAugment.nonempty?_eq_filter s

/-- A variable that is set to the empty text counts as unset. -/
theorem Environment.nonempty?_eq_some_iff {env : Environment} {name raw : String} :
    env.nonempty? name = some raw ↔ env name = some raw ∧ raw ≠ "" := by
  rw [env.nonempty?_eq_filter, Option.filter_eq_some_iff, decide_eq_true_eq]

/-! ## The policy -/

namespace TlsPolicy

variable {env : Environment} {raw : String} {p : TlsPolicy} {e : UnreadableSetting}

/-- A text gives a policy by the truth value that it spells. -/
theorem ofText_eq_ok_iff : ofText raw = .ok p ↔ ∃ b, Spells raw b ∧ p = ofBool b := by
  simp only [← truthValue?_eq_some_iff]
  rw [ofText]
  cases truthValue? raw <;> simp [eq_comm]

/-- The error carries the text as it is. -/
theorem ofText_eq_error_iff : ofText raw = .error e ↔ (∀ b, ¬Spells raw b) ∧ e = ⟨tlsVariable, raw⟩ := by
  rw [← truthValue?_eq_none_iff, ofText]
  cases truthValue? raw <;> simp [eq_comm]

/-- What is set is read as a text by itself is. -/
theorem ofEnvironment_of_set (h : env tlsVariable = some raw) (hne : raw ≠ "") : ofEnvironment env = ofText raw := by
  rw [ofEnvironment, Environment.nonempty?_eq_some_iff.mpr ⟨h, hne⟩]

/-- Where the variable is unset or empty there is no TLS. -/
theorem ofEnvironment_of_unset (h : ∀ raw, env tlsVariable = some raw → raw = "") : ofEnvironment env = .ok .disabled := by
  cases hset : env.nonempty? tlsVariable with
  | none => rw [ofEnvironment, hset]
  | some raw =>
    obtain ⟨hraw, hne⟩ := Environment.nonempty?_eq_some_iff.mp hset
    exact absurd (h raw hraw) hne

/-- The empty text spells nothing. -/
theorem not_spells_empty (b : Bool) : ¬Spells "" b := by
  cases b <;> simp [Spells, truthWords, Text.lowerAscii]

/-- The policy cannot be read just where something is set that spells no truth value. -/
theorem ofEnvironment_eq_error_iff : ofEnvironment env = .error e ↔
    ∃ raw, env tlsVariable = some raw ∧ raw ≠ "" ∧ (∀ b, ¬Spells raw b) ∧ e = ⟨tlsVariable, raw⟩ := by
  constructor
  · intro h
    by_cases hset : ∃ raw, env tlsVariable = some raw ∧ raw ≠ ""
    · obtain ⟨raw, hraw, hne⟩ := hset
      rw [ofEnvironment_of_set hraw hne, ofText_eq_error_iff] at h
      exact ⟨raw, hraw, hne, h⟩
    · rw [ofEnvironment_of_unset fun raw hraw => by_contra fun hne => hset ⟨raw, hraw, hne⟩] at h
      nomatch h
  · rintro ⟨raw, hraw, hne, h⟩
    rw [ofEnvironment_of_set hraw hne, ofText_eq_error_iff]
    exact h

/-- Where the policy can be read, TLS is used just where a word for it is set. -/
theorem ofEnvironment_enabled_iff (h : ofEnvironment env = .ok p) :
    p = .enabled ↔ ∃ raw, env tlsVariable = some raw ∧ Spells raw true := by
  by_cases hset : ∃ raw, env tlsVariable = some raw ∧ raw ≠ ""
  · obtain ⟨raw, hraw, hne⟩ := hset
    rw [ofEnvironment_of_set hraw hne] at h
    obtain ⟨b, hb, rfl⟩ := ofText_eq_ok_iff.mp h
    constructor
    · intro henabled
      cases b with
      | true => exact ⟨raw, hraw, hb⟩
      | false => nomatch henabled
    · rintro ⟨raw', hraw', htrue⟩
      obtain rfl : raw = raw' := Option.some.inj (hraw.symm.trans hraw')
      rw [← truthValue?_eq_some_iff] at hb htrue
      obtain rfl : b = true := Option.some.inj (hb.symm.trans htrue)
      rfl
  · rw [ofEnvironment_of_unset fun raw hraw => by_contra fun hne => hset ⟨raw, hraw, hne⟩] at h
    cases h
    simp only [reduceCtorEq, false_iff]
    rintro ⟨raw, hraw, htrue⟩
    refine hset ⟨raw, hraw, ?_⟩
    rintro rfl
    exact not_spells_empty true htrue

end TlsPolicy

/-! ## The settings -/

namespace AugmentSettings

variable {env : Environment} {s : AugmentSettings} {e : UnreadableSetting}

/-- The settings of an augmentation depend on four variables only. -/
theorem ofEnvironment_congr {env' : Environment}
    (h : ∀ name ∈ [tlsVariable, bundlePathVariable, bundleSecretVariable, exitTemplateVariable], env name = env' name) :
    ofEnvironment env = ofEnvironment env' := by
  simp only [List.forall_mem_cons] at h
  obtain ⟨htls, hpath, hsecret, hexit, -⟩ := h
  simp only [ofEnvironment, TlsPolicy.ofEnvironment, Environment.nonempty?, htls, hpath, hsecret, hexit]

/-- Only the policy can be unreadable. -/
theorem ofEnvironment_eq_error_iff : ofEnvironment env = .error e ↔ TlsPolicy.ofEnvironment env = .error e := by
  rw [ofEnvironment]
  cases TlsPolicy.ofEnvironment env with
  | error e' =>
    constructor
    · rintro ⟨⟩
      rfl
    · rintro ⟨⟩
      rfl
  | ok p => exact ⟨nofun, nofun⟩

/-- Settings come of the policy if that can be read, and of the other variables as they are. -/
theorem ofEnvironment_eq_ok_iff : ofEnvironment env = .ok s ↔ ∃ p, TlsPolicy.ofEnvironment env = .ok p ∧
    s = ⟨p, ⟨(env bundlePathVariable).getD "", (env bundleSecretVariable).getD ""⟩, env.nonempty? exitTemplateVariable⟩ := by
  rw [ofEnvironment]
  cases TlsPolicy.ofEnvironment env with
  | error e => exact ⟨nofun, nofun⟩
  | ok p =>
    constructor
    · rintro ⟨⟩
      exact ⟨p, rfl, rfl⟩
    · rintro ⟨_, ⟨⟩, rfl⟩
      rfl

/-- Of the overrides of the exit template the last counts, and nothing else changes. -/
theorem foldl_withExitTemplate (s : AugmentSettings) (templates : List String) :
    templates.foldl withExitTemplate s = { s with exit := templates.getLast?.elim s.exit nonempty? } := by
  induction templates generalizing s with
  | nil => rfl
  | cons t ts ih =>
    rw [List.foldl_cons, ih, List.getLast?_cons]
    cases ts.getLast? <;> rfl

/-- A task without hooks gets one if there is an exit template. -/
theorem hooks_augmentTask_invoking (h : s.exitTemplate ≠ "") (parent name template : String) :
    (s.augmentTask parent (.invoking name template)).hooks.exit? = some (exitHook s.exitTemplate parent) := by
  rw [augmentTask, Task.addExitHook, if_neg h, Hooks.exit?, Hooks.setExit, Dict.get?_insert, if_pos rfl]

/-- Tasks are left alone just where the name of the exit template is empty. -/
theorem exitTemplate_eq_empty_iff : s.exitTemplate = "" ↔ ∀ parent t, s.augmentTask parent t = t := by
  constructor
  · intro h parent t
    exact if_pos h
  · intro h
    by_contra hne
    have hhook := hooks_augmentTask_invoking hne "" "" ""
    rw [h] at hhook
    nomatch hhook

/-- The settings are what the environment holds, with the last override of the exit template in place of what is set. An exit
template without a name is none, so the name is empty just where there is no exit template, and just where tasks are left
alone. -/
structure Resolves (env : Environment) (overrides : List String) (s : AugmentSettings) : Prop where
  tls : s.tls = .enabled ↔ ∃ raw, env tlsVariable = some raw ∧ Spells raw true
  path : s.bundle.path = (env bundlePathVariable).getD ""
  secretName : s.bundle.secretName = (env bundleSecretVariable).getD ""
  exit : s.exit = (overrides.getLast?.or (env exitTemplateVariable)).filter (· ≠ "")
  named : s.exit ≠ some ""
  none_iff : s.exitTemplate = "" ↔ s.exit = none
  alone_iff : s.exitTemplate = "" ↔ ∀ parent t, s.augmentTask parent t = t

/-- An empty name stands for no exit template only, if none has it. -/
theorem exitTemplate_eq_empty_iff_exit_eq_none (h : s.exit ≠ some "") : s.exitTemplate = "" ↔ s.exit = none := by
  rw [exitTemplate]
  cases hexit : s.exit with
  | none => exact ⟨fun _ => rfl, fun _ => rfl⟩
  | some t =>
    rw [hexit] at h
    constructor
    · rintro rfl
      exact absurd rfl h
    · nofun

/-- With templates for the exit given one after another, the settings are what the environment and these resolve to. -/
theorem resolves_foldl_withExitTemplate (h : ofEnvironment env = .ok s) (overrides : List String) :
    Resolves env overrides (overrides.foldl withExitTemplate s) := by
  obtain ⟨p, hp, rfl⟩ := ofEnvironment_eq_ok_iff.mp h
  rw [foldl_withExitTemplate]
  have hexit : overrides.getLast?.elim (env.nonempty? exitTemplateVariable) nonempty? =
      (overrides.getLast?.or (env exitTemplateVariable)).filter (· ≠ "") := by
    cases overrides.getLast? with
    | none => exact env.nonempty?_eq_filter exitTemplateVariable
    | some t => exact nonempty?_eq_filter t
  have hnamed : overrides.getLast?.elim (env.nonempty? exitTemplateVariable) nonempty? ≠ some "" := by
    rw [hexit]
    intro heq
    simpa using (Option.filter_eq_some_iff.mp heq).2
  exact ⟨TlsPolicy.ofEnvironment_enabled_iff hp, rfl, rfl, hexit, hnamed, exitTemplate_eq_empty_iff_exit_eq_none hnamed,
    exitTemplate_eq_empty_iff⟩

/-- How the environment settles an augmentation. It fails just where the variable for TLS is set to a text that is neither
empty nor a word for a truth value in any letter case, with the text as it is, whatever else is set. Otherwise the settings are
what is set, behind any number of overrides of the exit template. Only four variables matter. What is set for TLS is read as
the text is by itself. -/
theorem ofEnvironment_resolves (env : Environment) :
    (∀ e, ofEnvironment env = .error e ↔
      ∃ raw, env tlsVariable = some raw ∧ raw ≠ "" ∧ (∀ b, ¬Spells raw b) ∧ e = ⟨tlsVariable, raw⟩) ∧
    (∀ s, ofEnvironment env = .ok s → ∀ overrides : List String,
      Resolves env overrides (overrides.foldl withExitTemplate s)) ∧
    (∀ env', (∀ name ∈ [tlsVariable, bundlePathVariable, bundleSecretVariable, exitTemplateVariable], env name = env' name) →
      ofEnvironment env = ofEnvironment env') ∧
    ∀ raw, env tlsVariable = some raw → raw ≠ "" → TlsPolicy.ofText raw = TlsPolicy.ofEnvironment env := by
  refine ⟨fun e => ?_, fun s h overrides => ?_, fun env' => ofEnvironment_congr, fun raw hraw hne => ?_⟩
  · rw [ofEnvironment_eq_error_iff, TlsPolicy.ofEnvironment_eq_error_iff]
  · exact resolves_foldl_withExitTemplate h overrides
  · exact (TlsPolicy.ofEnvironment_of_set hraw hne).symm

end AugmentSettings

end WorkflowAugment

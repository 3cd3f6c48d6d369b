import WorkflowAugment.CommandLine.Run
import WorkflowAugment.Proofs.Settings
import WorkflowAugment.Proofs.Text.Decoding

/-!
# Settings that are no text

The environment holds octets, and what is not UTF-8 in them is replaced by U+FFFD before anything is settled. No word for a
truth value has that character in any letter case (`not_spells_of_replacement_mem`), and something that is set is something still
behind the replacement, so such octets count neither as unset nor as a truth value (`CommandLine.ofEnvironment_octets`).
-/

namespace WorkflowAugment

/-- A text with U+FFFD in it spells no truth value. -/
theorem not_spells_of_replacement_mem {raw : String} (h : '\uFFFD' ∈ raw.toList) (b : Bool) : ¬Spells raw b := by
  rintro ⟨word, hword, heq⟩
  have hsmall : Char.toLower '\uFFFD' = '\uFFFD' := by decide
  have hlower : '\uFFFD' ∈ word.toList := by
    rw [← heq, Text.lowerAscii]
    exact List.mem_map.mpr ⟨_, h, hsmall⟩
  have hwords : ∀ b, ∀ word ∈ truthWords b, '\uFFFD' ∉ word.toList := by decide
  exact hwords b word hword hlower

namespace CommandLine

open Text.Utf8

variable {env : String → Option Octets} {name : String} {octets : Octets}

/-- A variable with octets is taken for the text that they are decoded to. -/
theorem textEnvironment_of_some (h : env name = some octets) : textEnvironment env name = some (decodeLossy octets) := by
  rw [textEnvironment, h, Option.map_some]

/-- Octets that are no text are no truth value, and they are reported with U+FFFD for each broken piece. -/
theorem ofEnvironment_of_ne_encode (h : env tlsVariable = some octets) (hne : ∀ s, octets ≠ encode s) :
    '\uFFFD' ∈ (decodeLossy octets).toList ∧
      TlsPolicy.ofEnvironment (textEnvironment env) = .error ⟨tlsVariable, decodeLossy octets⟩ := by
  have hmem : '\uFFFD' ∈ (decodeLossy octets).toList := by
    rw [decodeLossy, String.toList_ofList]
    exact List.mem_map.mpr ⟨.invalid, invalid_mem_items_iff.mpr hne, rfl⟩
  have hnonempty : decodeLossy octets ≠ "" := by
    intro hempty
    rw [hempty] at hmem
    cases hmem
  exact ⟨hmem, TlsPolicy.ofEnvironment_eq_error_iff.mpr
    ⟨_, textEnvironment_of_some h, hnonempty, not_spells_of_replacement_mem hmem, rfl⟩⟩

/-- How octets in the environment are taken. The encoding of a text, set for TLS, is taken as that text. Octets that are no text
are reported, with U+FFFD for every piece that is broken, whatever stands around it. Whatever octets name the secret of the
bundle, text or not, if there are any the bundle is configured. -/
theorem ofEnvironment_octets (env : String → Option Octets) :
    (∀ s (texts : Environment), env tlsVariable = some (encode s) → texts tlsVariable = some s →
      TlsPolicy.ofEnvironment (textEnvironment env) = TlsPolicy.ofEnvironment texts) ∧
    (∀ octets, env tlsVariable = some octets → (∀ s, octets ≠ encode s) →
      ∃ is, Decodes octets is ∧ '\uFFFD' ∈ is.map Item.charOrReplacement ∧
        TlsPolicy.ofEnvironment (textEnvironment env) =
          .error ⟨tlsVariable, String.ofList (is.map Item.charOrReplacement)⟩ ∧
        AugmentSettings.ofEnvironment (textEnvironment env) =
          .error ⟨tlsVariable, String.ofList (is.map Item.charOrReplacement)⟩) ∧
    ∀ octets p, env bundleSecretVariable = some octets → octets ≠ [] → TlsPolicy.ofEnvironment (textEnvironment env) = .ok p →
      ∃ s, AugmentSettings.ofEnvironment (textEnvironment env) = .ok s ∧ s.bundle.isConfigured := by
  refine ⟨fun s texts henv htexts => ?_, fun octets henv hne => ?_, fun octets p henv hne hp => ?_⟩
  · have hsame : textEnvironment env tlsVariable = texts tlsVariable := by
      rw [textEnvironment_of_some henv, decodeLossy_encode, htexts]
    rw [TlsPolicy.ofEnvironment, TlsPolicy.ofEnvironment, Environment.nonempty?, Environment.nonempty?, hsame]
  · obtain ⟨hmem, herror⟩ := ofEnvironment_of_ne_encode henv hne
    have hdecodes := (decodes_items octets).1
    rw [decodeLossy_of_decodes hdecodes] at hmem herror
    rw [String.toList_ofList] at hmem
    exact ⟨_, hdecodes, hmem, herror, AugmentSettings.ofEnvironment_eq_error_iff.mpr herror⟩
  · refine ⟨_, AugmentSettings.ofEnvironment_eq_ok_iff.mpr ⟨p, hp, rfl⟩, ?_⟩
    have hsecret : textEnvironment env bundleSecretVariable = some (decodeLossy octets) := textEnvironment_of_some henv
    rw [CaBundle.isConfigured, hsecret, Option.getD_some, decide_eq_true_eq]
    exact decodeLossy_ne_empty hne

end CommandLine

end WorkflowAugment

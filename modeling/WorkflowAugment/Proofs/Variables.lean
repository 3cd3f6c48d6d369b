import WorkflowAugment.Proofs.Additions
import WorkflowAugment.Proofs.Directory.Routes

/-!
# The variables of a container

Of the entries for a variable the last one counts, so what is appended is effective whatever stood there before
(`Container.getLast?_envNamed_add`), as long as no two of the new variables share a name, and all other variables keep their
entries (`Container.envNamed_add_of_notMem`). For the variables that an augmentation appends this is
`AugmentSettings.env_augmentTemplate`.
-/

namespace WorkflowAugment

/-! ## Appended variables -/

/-- Nothing has the name if it is none of the names. -/
theorem EnvVar.filter_name_eq_nil_iff {l : List EnvVar} {name : String} :
    l.filter (·.name = name) = [] ↔ name ∉ l.map (·.name) := by
  simp [List.filter_eq_nil_iff]

namespace Container

variable {c c' : Container} {a : Additions} {e : EnvVar} {name : String}

/-- Appended variables of a name stand behind those that were there. -/
theorem envNamed_add (c : Container) (a : Additions) (name : String) :
    (c.add a).envNamed name = c.envNamed name ++ a.env.filter (·.name = name) :=
  List.filter_append c.env a.env

/-- A variable that is not among the appended ones keeps its entries. -/
theorem envNamed_add_of_notMem (h : name ∉ a.env.map (·.name)) : (c.add a).envNamed name = c.envNamed name := by
  rw [envNamed_add, EnvVar.filter_name_eq_nil_iff.mpr h, List.append_nil]

/-- Where every name occurs once, the only entry of a name is found. -/
theorem filter_name_of_nodup {l : List EnvVar} (hnd : (l.map (·.name)).Nodup) (he : e ∈ l) :
    l.filter (·.name = e.name) = [e] := by
  induction l with
  | nil => nomatch he
  | cons x l ih =>
    rw [List.map_cons, List.nodup_cons] at hnd
    rcases List.mem_cons.mp he with rfl | he
    · rw [List.filter_cons_of_pos (by simp), EnvVar.filter_name_eq_nil_iff.mpr hnd.1]
    · have hne : x.name ≠ e.name := fun heq => hnd.1 (heq ▸ List.mem_map_of_mem he)
      rw [List.filter_cons_of_neg (by simpa using hne), ih hnd.2 he]

/-- An appended variable is the last entry of its name. -/
theorem getLast?_envNamed_add (hnd : (a.env.map (·.name)).Nodup) (he : e ∈ a.env) :
    ((c.add a).envNamed e.name).getLast? = some e := by
  rw [envNamed_add, filter_name_of_nodup hnd he, List.getLast?_concat]

/-- The last variable of a name is the effective one. -/
theorem envValue_of_getLast? (h : (c.envNamed name).getLast? = some e) : c.envValue name = e.value := by
  rw [envValue, h]
  rfl

/-- Containers with the same variables of a name have the same effective value. -/
theorem envValue_congr (h : c'.envNamed name = c.envNamed name) : c'.envValue name = c.envValue name := by
  rw [envValue, envValue, h]

end Container

/-! ## Search paths -/

/-- What stands before a separator is the first piece exactly if the separator does not occur in it. -/
theorem Text.split_append_cons_eq_iff {c : Char} {s t : List Char} : split c (s ++ c :: t) = s :: split c t ↔ c ∉ s := by
  rw [split_append_cons, ← List.singleton_append (x := s), List.append_cancel_right_eq]
  constructor
  · intro h
    exact notMem_of_mem_split s (by rw [h]; exact List.mem_singleton_self s)
  · exact split_of_notMem

/-- The search path is the directory of the bundle and two directories of the system. -/
theorem CaBundle.searchPath_eq (b : CaBundle) :
    b.searchPath = b.mountDirectory ++ ":/etc/ssl/certs:/etc/pki/tls/certs" := by
  simp [searchPath, systemDirectories, String.intercalate_cons_cons, String.append_assoc]

/-- The directories of a search path are told apart exactly if there is no separator in the first. -/
theorem split_searchPath_iff (directory : String) :
    Text.split ':' (directory ++ ":/etc/ssl/certs:/etc/pki/tls/certs").toList =
      [directory.toList, "/etc/ssl/certs".toList, "/etc/pki/tls/certs".toList] ↔ ':' ∉ directory.toList := by
  have hsystem : Text.split ':' "/etc/ssl/certs:/etc/pki/tls/certs".toList =
      ["/etc/ssl/certs".toList, "/etc/pki/tls/certs".toList] := by decide
  rw [String.toList_append, ← hsystem]
  exact Text.split_append_cons_eq_iff

/-! ## What an augmentation appends -/

namespace AugmentSettings

variable {s : AugmentSettings} {e : EnvVar}

/-- The variables that are appended are those of the bundle, if it is configured, and those of the identity. -/
theorem env_additions (s : AugmentSettings) :
    s.additions.env = (if s.bundle.isConfigured then s.bundle.trustVariables else []) ++ identityVariables := by
  unfold additions CaBundle.additions
  split <;> rfl

/-- Their names are four for the bundle, if it is configured, and two for the identity. -/
theorem names_additions (s : AugmentSettings) :
    s.additions.env.map (·.name) =
      (if s.bundle.isConfigured then ["REQUESTS_CA_BUNDLE", "AWS_CA_BUNDLE", "SSL_CERT_FILE", "SSL_CERT_DIR"] else []) ++
        ["KFP_POD_NAME", "KFP_POD_UID"] := by
  rw [env_additions]
  split <;> rfl

/-- No name is appended twice. -/
theorem nodup_names_additions (s : AugmentSettings) : (s.additions.env.map (·.name)).Nodup := by
  rw [names_additions]
  split <;> decide

/-- The variables of a configured bundle are appended. -/
theorem mem_additions_of_trust (hset : s.bundle.isConfigured) (he : e ∈ s.bundle.trustVariables) :
    e ∈ s.additions.env := by
  rw [env_additions, if_pos hset]
  exact List.mem_append_left _ he

/-- The variables of the identity are appended. -/
theorem mem_additions_of_identity (he : e ∈ identityVariables) : e ∈ s.additions.env := by
  rw [env_additions]
  exact List.mem_append_right _ he

/-- Whatever variables a container has, behind an augmentation the ones that it appends are the effective ones. With a secret
the three variables for the bundle have its path and the search path begins with the directory that is mounted last, which
can be told apart from the others unless there is a colon in it. The variables for the pod refer to its fields, and have no
value, whether or not they had one. All other variables are as before. -/
theorem env_augmentTemplate (s : AugmentSettings) {t : Template} {c : Container} (hc : t.container = some c) :
    ∃ c', (s.augmentTemplate t).container = some c' ∧
      (s.bundle.secretName ≠ "" →
        c'.envValue "REQUESTS_CA_BUNDLE" = some s.bundle.path ∧
        c'.envValue "AWS_CA_BUNDLE" = some s.bundle.path ∧
        c'.envValue "SSL_CERT_FILE" = some s.bundle.path ∧
        c'.envValue "SSL_CERT_DIR" = some (s.bundle.mountDirectory ++ ":/etc/ssl/certs:/etc/pki/tls/certs") ∧
        (∃ m, c'.volumeMounts.getLast? = some m ∧ m.mountPath = s.bundle.mountDirectory) ∧
        (Text.split ':' (s.bundle.mountDirectory ++ ":/etc/ssl/certs:/etc/pki/tls/certs").toList =
          [s.bundle.mountDirectory.toList, "/etc/ssl/certs".toList, "/etc/pki/tls/certs".toList] ↔
            ':' ∉ s.bundle.mountDirectory.toList)) ∧
      (∃ e, (c'.envNamed "KFP_POD_NAME").getLast? = some e ∧ e.fieldPath = some "metadata.name") ∧
      (∃ e, (c'.envNamed "KFP_POD_UID").getLast? = some e ∧ e.fieldPath = some "metadata.uid") ∧
      c'.envValue "KFP_POD_NAME" = none ∧ c'.envValue "KFP_POD_UID" = none ∧
      ∀ name, name ∉ ["KFP_POD_NAME", "KFP_POD_UID"] →
        (s.bundle.secretName ≠ "" → name ∉ ["REQUESTS_CA_BUNDLE", "AWS_CA_BUNDLE", "SSL_CERT_FILE", "SSL_CERT_DIR"]) →
        c'.envNamed name = c.envNamed name ∧ c'.envValue name = c.envValue name := by
  have hlast : ∀ e ∈ s.additions.env, ((c.add s.additions).envNamed e.name).getLast? = some e :=
    fun e he => Container.getLast?_envNamed_add s.nodup_names_additions he
  have hvalue : ∀ e ∈ s.additions.env, (c.add s.additions).envValue e.name = e.value :=
    fun e he => Container.envValue_of_getLast? (hlast e he)
  have hpodName : EnvVar.fieldRef "KFP_POD_NAME" podNameField ∈ s.additions.env :=
    mem_additions_of_identity (by simp [identityVariables])
  have hpodUid : EnvVar.fieldRef "KFP_POD_UID" podUidField ∈ s.additions.env :=
    mem_additions_of_identity (by simp [identityVariables])
  refine ⟨c.add s.additions, ?_, ?trust, ⟨_, hlast _ hpodName, rfl⟩, ⟨_, hlast _ hpodUid, rfl⟩, hvalue _ hpodName,
    hvalue _ hpodUid, ?others⟩
  · rw [augmentTemplate_eq_add, Template.add_of_some hc]
  case trust =>
    intro hsecret
    have hset := CaBundle.isConfigured_iff.mpr hsecret
    have htrust : ∀ e ∈ s.bundle.trustVariables, (c.add s.additions).envValue e.name = e.value :=
      fun e he => hvalue e (mem_additions_of_trust hset he)
    simp only [CaBundle.trustVariables, List.forall_mem_cons, CaBundle.searchPath_eq] at htrust
    obtain ⟨hrequests, haws, hfile, hdir, -⟩ := htrust
    refine ⟨hrequests, haws, hfile, hdir, ⟨⟨bundleVolume, s.bundle.mountDirectory, .empty⟩, ?_, rfl⟩,
      split_searchPath_iff s.bundle.mountDirectory⟩
    rw [Container.add, s.volumeMounts_additions, if_pos hset, List.getLast?_concat]
  case others =>
    intro name hpod htrust
    have hother : name ∉ s.additions.env.map (·.name) := by
      rw [names_additions, List.mem_append, not_or]
      refine ⟨?_, hpod⟩
      split
      · rename_i hset
        exact htrust (CaBundle.isConfigured_iff.mp hset)
      · exact List.not_mem_nil
    have hnamed : (c.add s.additions).envNamed name = c.envNamed name := Container.envNamed_add_of_notMem hother
    exact ⟨hnamed, Container.envValue_congr hnamed⟩

/-- A container that has the variables already, some more than once and by other means. -/
def shadowed : Container :=
  { Container.ofImage "i" with
    env := [.literal "KFP_POD_NAME" "mine", .fieldRef "SSL_CERT_FILE" "metadata.name", .literal "SSL_CERT_FILE" "old",
      .literal "HOME" "/root", .literal "HOME" "/home"] }

/-- In the example the entries that were there are without effect, but for the variable that is not appended. -/
theorem env_augmentTemplate_shadowed :
    (Template.ofContainer "t" shadowed).container = some shadowed ∧
    shadowed.envValue "KFP_POD_NAME" = some "mine" ∧ shadowed.envValue "SSL_CERT_FILE" = some "old" ∧
    ∃ c', (augmentTemplate ⟨.disabled, ⟨"/a:b/ca.pem", "ca"⟩, none⟩ (.ofContainer "t" shadowed)).container = some c' ∧
      c'.envValue "KFP_POD_NAME" = none ∧ c'.envValue "SSL_CERT_FILE" = some "/a:b/ca.pem" ∧
      c'.envValue "HOME" = some "/home" := by
  refine ⟨rfl, by decide, by decide, ?_⟩
  obtain ⟨c', hc', htrust, -, -, hpod, -, hothers⟩ :=
    env_augmentTemplate ⟨.disabled, ⟨"/a:b/ca.pem", "ca"⟩, none⟩ (t := .ofContainer "t" shadowed) (c := shadowed) rfl
  obtain ⟨-, -, hfile, -⟩ := htrust (by decide)
  obtain ⟨-, hhome⟩ := hothers "HOME" (by decide) fun _ => by decide
  exact ⟨c', hc', hpod, hfile, hhome⟩

end AugmentSettings

end WorkflowAugment

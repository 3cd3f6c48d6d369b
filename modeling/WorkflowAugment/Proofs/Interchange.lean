import WorkflowAugment.Proofs.Variables

/-!
# Additions in any order

The bundle, the identity of the pod and the connection to the metadata store may be added to a template in any order and any
number of times. Only the list of variables shows the order: its entries come in another one, but those of each name come in
the same, since no name is given by two kinds of additions (`Template.injectAll_perm`).
-/

namespace WorkflowAugment

/-- The kinds of things that are added to a container. -/
inductive Injection where
  | bundle
  | identity
  | metadata
deriving DecidableEq, Repr

/-- What is appended by one injection. -/
def Injection.additions (b : CaBundle) : Injection → Additions
  | bundle => b.additions
  | identity => .identity
  | metadata => .metadata

/-- What is appended by injections one after another. -/
def Additions.gather (b : CaBundle) (calls : List Injection) : Additions where
  env := calls.flatMap fun i => (i.additions b).env
  envFrom := calls.flatMap fun i => (i.additions b).envFrom
  volumeMounts := calls.flatMap fun i => (i.additions b).volumeMounts
  volumes := calls.flatMap fun i => (i.additions b).volumes

/-- The containers come from one by appending variables, and differ in the order of these only. The order in which entries of
one name come is the same, and so is the effective one. -/
structure Container.Interchanged (c d d' : Container) : Prop where
  image : d'.image = d.image
  command : d'.command = d.command
  args : d'.args = d.args
  envFrom : d'.envFrom = d.envFrom
  volumeMounts : d'.volumeMounts = d.volumeMounts
  extra : d'.extra = d.extra
  env : ∃ l l', d.env = c.env ++ l ∧ d'.env = c.env ++ l' ∧ l.Perm l'
  envNamed : ∀ name, d'.envNamed name = d.envNamed name
  envValue : ∀ name, d'.envValue name = d.envValue name

/-- The templates come from one by additions to its container, and differ in the order of variables only. -/
structure Template.Interchanged (t u u' : Template) : Prop where
  name : u'.name = u.name
  volumes : u'.volumes = u.volumes
  dag : u'.dag = u.dag
  extra : u'.extra = u.extra
  bare : t.container = none → u.container = none ∧ u'.container = none
  container : ∀ c, t.container = some c →
    ∃ d d', u.container = some d ∧ u'.container = some d' ∧ c.Interchanged d d'

namespace Template

variable {t : Template} {b : CaBundle} {calls calls' : List Injection}

/-- The template after one injection. -/
def inject (b : CaBundle) (t : Template) : Injection → Template
  | .bundle => b.addTo t
  | .identity => t.addIdentity
  | .metadata => t.addMetadata

/-- The template after injections one after another. -/
def injectAll (b : CaBundle) (t : Template) (calls : List Injection) : Template := calls.foldl (inject b) t

/-! ## What is appended in all -/

/-- Each injection appends its additions. -/
theorem inject_eq_add (b : CaBundle) (t : Template) (i : Injection) : t.inject b i = t.add (i.additions b) := by
  cases i with
  | bundle => exact b.addTo_eq_add t
  | identity => exact t.addIdentity_eq_add
  | metadata => exact t.addMetadata_eq_add

/-- Injections append what each of them appends, one behind the other. -/
theorem injectAll_eq_add (b : CaBundle) (t : Template) (calls : List Injection) :
    t.injectAll b calls = t.add (.gather b calls) := by
  induction calls generalizing t with
  | nil => exact t.add_empty.symm
  | cons i calls ih =>
    calc
      t.injectAll b (i :: calls) = (t.inject b i).injectAll b calls := rfl
      _ = (t.add (i.additions b)).add (.gather b calls) := by rw [ih, inject_eq_add]
      _ = t.add (.gather b (i :: calls)) := t.add_add _ _

end Template

/-! ## Lists to which one kind of injection appends -/

/-- A list to which one kind of call appends is the same in whatever order the calls come. -/
theorem flatMap_eq_of_perm {α β : Type} {f : α → List β} (hone : ∀ i j, f i ≠ [] → f j ≠ [] → i = j) {l l' : List α}
    (h : l.Perm l') : l.flatMap f = l'.flatMap f := by
  induction h with
  | nil => rfl
  | cons i _ ih => rw [List.flatMap_cons, List.flatMap_cons, ih]
  | swap i j l =>
    simp only [List.flatMap_cons]
    by_cases hi : f i = []
    · rw [hi, List.nil_append, List.nil_append]
    · by_cases hj : f j = []
      · rw [hj, List.nil_append, List.nil_append]
      · rw [hone i j hi hj]
  | trans _ _ ih ih' => exact ih.trans ih'

namespace Injection

variable {b : CaBundle} {i j : Injection}

/-- Sources of variables are appended by the metadata store only. -/
theorem envFrom_additions (h : (i.additions b).envFrom ≠ []) : i = metadata := by
  cases i with
  | bundle =>
    refine absurd ?_ h
    rw [additions, CaBundle.additions]
    split <;> rfl
  | identity => exact absurd rfl h
  | metadata => rfl

/-- Mounts are appended by the bundle only. -/
theorem volumeMounts_additions (h : (i.additions b).volumeMounts ≠ []) : i = bundle := by
  cases i with
  | bundle => rfl
  | identity => exact absurd rfl h
  | metadata => exact absurd rfl h

/-- Volumes are appended by the bundle only. -/
theorem volumes_additions (h : (i.additions b).volumes ≠ []) : i = bundle := by
  cases i with
  | bundle => rfl
  | identity => exact absurd rfl h
  | metadata => exact absurd rfl h

/-- No name is given to variables by two kinds of injections. -/
theorem eq_of_mem_names {name : String} (hi : name ∈ (i.additions b).env.map (·.name))
    (hj : name ∈ (j.additions b).env.map (·.name)) : i = j := by
  have hbundle : name ∈ (bundle.additions b).env.map (·.name) →
      name ∈ ["REQUESTS_CA_BUNDLE", "AWS_CA_BUNDLE", "SSL_CERT_FILE", "SSL_CERT_DIR"] := by
    rw [additions, CaBundle.additions]
    split
    · exact id
    · exact fun h => nomatch h
  have hidentity : name ∈ (identity.additions b).env.map (·.name) → name ∈ ["KFP_POD_NAME", "KFP_POD_UID"] := id
  have hdisjoint : ∀ n ∈ ["REQUESTS_CA_BUNDLE", "AWS_CA_BUNDLE", "SSL_CERT_FILE", "SSL_CERT_DIR"],
      n ∉ ["KFP_POD_NAME", "KFP_POD_UID"] := by decide
  cases i with
  | bundle =>
    cases j with
    | bundle => rfl
    | identity => exact absurd (hidentity hj) (hdisjoint _ (hbundle hi))
    | metadata => nomatch hj
  | identity =>
    cases j with
    | bundle => exact absurd (hidentity hi) (hdisjoint _ (hbundle hj))
    | identity => rfl
    | metadata => nomatch hj
  | metadata => nomatch hi

end Injection

namespace Additions

variable {b : CaBundle} {calls calls' : List Injection}

/-- In any order the same sources of variables are gathered, in the same order. -/
theorem envFrom_gather_perm (h : calls.Perm calls') : (gather b calls').envFrom = (gather b calls).envFrom :=
  flatMap_eq_of_perm (fun _ _ hi hj => (Injection.envFrom_additions hi).trans (Injection.envFrom_additions hj).symm) h.symm

/-- In any order the same mounts are gathered, in the same order. -/
theorem volumeMounts_gather_perm (h : calls.Perm calls') :
    (gather b calls').volumeMounts = (gather b calls).volumeMounts :=
  flatMap_eq_of_perm
    (fun _ _ hi hj => (Injection.volumeMounts_additions hi).trans (Injection.volumeMounts_additions hj).symm) h.symm

/-- In any order the same volumes are gathered, in the same order. -/
theorem volumes_gather_perm (h : calls.Perm calls') : (gather b calls').volumes = (gather b calls).volumes :=
  flatMap_eq_of_perm (fun _ _ hi hj => (Injection.volumes_additions hi).trans (Injection.volumes_additions hj).symm) h.symm

/-- The entries of one name are the same, and in the same order. -/
theorem filter_env_gather_perm (h : calls.Perm calls') (name : String) :
    (gather b calls').env.filter (·.name = name) = (gather b calls).env.filter (·.name = name) := by
  have hsome : ∀ i : Injection, (i.additions b).env.filter (·.name = name) ≠ [] →
      name ∈ (i.additions b).env.map (·.name) := by
    intro i hi
    by_contra hnot
    exact hi (EnvVar.filter_name_eq_nil_iff.mpr hnot)
  simp only [gather, List.filter_flatMap]
  exact flatMap_eq_of_perm (fun i j hi hj => Injection.eq_of_mem_names (hsome i hi) (hsome j hj)) h.symm

end Additions

/-! ## Any order -/

namespace Template

variable {t : Template} {b : CaBundle} {calls calls' : List Injection}

/-- Injections in another order, any number of each, leave a template that differs in the order of variables only: all else
is the same, what was there stands in front, and every name has the same entries in the same order. -/
theorem injectAll_perm (b : CaBundle) (t : Template) (h : calls.Perm calls') :
    t.Interchanged (t.injectAll b calls) (t.injectAll b calls') := by
  rw [injectAll_eq_add, injectAll_eq_add]
  cases hc : t.container with
  | none =>
    rw [add_of_none hc, add_of_none hc]
    refine ⟨rfl, rfl, rfl, rfl, fun _ => ⟨hc, hc⟩, ?_⟩
    intro c hsome
    rw [hc] at hsome
    cases hsome
  | some c =>
    have hnamed : ∀ name, (c.add (.gather b calls')).envNamed name = (c.add (.gather b calls)).envNamed name := by
      intro name
      rw [Container.envNamed_add, Container.envNamed_add, Additions.filter_env_gather_perm h]
    rw [add_of_some hc, add_of_some hc]
    refine ⟨rfl, ?volumes, rfl, rfl, ?bare, ?container⟩
    case volumes => rw [Additions.volumes_gather_perm h]
    case bare =>
      intro hnone
      rw [hc] at hnone
      cases hnone
    case container =>
      intro c' hsome
      rw [hc] at hsome
      cases hsome
      refine ⟨_, _, rfl, rfl, rfl, rfl, rfl, ?envFrom, ?volumeMounts, rfl, ?env, hnamed, ?envValue⟩
      case envFrom => simp only [Container.add, Additions.envFrom_gather_perm h]
      case volumeMounts => simp only [Container.add, Additions.volumeMounts_gather_perm h]
      case env => exact ⟨_, _, rfl, rfl, h.flatMap_right _⟩
      case envValue => exact fun name => Container.envValue_congr (hnamed name)

/-- Two bundles around an identity leave the list of variables in another order than two bundles before it. The container has
entries of its own under names that are appended; they stay in front in either order, and are without effect. -/
theorem injectAll_perm_mixed :
    [Injection.bundle, .identity, .metadata, .bundle].Perm [.bundle, .bundle, .identity, .metadata] ∧
    ∃ d d',
      ((ofContainer "t" AugmentSettings.shadowed).injectAll ⟨"/certs/ca.pem", "ca"⟩
        [.bundle, .identity, .metadata, .bundle]).container = some d ∧
      ((ofContainer "t" AugmentSettings.shadowed).injectAll ⟨"/certs/ca.pem", "ca"⟩
        [.bundle, .bundle, .identity, .metadata]).container = some d' ∧
      (∃ l l', d.env = AugmentSettings.shadowed.env ++ l ∧ d'.env = AugmentSettings.shadowed.env ++ l' ∧ l.Perm l') ∧
      d'.env.map (·.name) ≠ d.env.map (·.name) ∧
      d'.envNamed "SSL_CERT_FILE" = d.envNamed "SSL_CERT_FILE" ∧
      (d.envNamed "SSL_CERT_FILE").map (·.value) = [none, some "old", some "/certs/ca.pem", some "/certs/ca.pem"] ∧
      d'.envValue "SSL_CERT_FILE" = d.envValue "SSL_CERT_FILE" ∧ d.envValue "SSL_CERT_FILE" = some "/certs/ca.pem" := by
  have hperm : [Injection.bundle, .identity, .metadata, .bundle].Perm [.bundle, .bundle, .identity, .metadata] := by
    decide
  refine ⟨hperm, ?_⟩
  obtain ⟨d, d', hd, hd', hinterchanged⟩ :=
    (injectAll_perm ⟨"/certs/ca.pem", "ca"⟩ (ofContainer "t" AugmentSettings.shadowed) hperm).container _ rfl
  refine ⟨d, d', hd, hd', hinterchanged.env, ?_, hinterchanged.envNamed "SSL_CERT_FILE", ?_,
    hinterchanged.envValue "SSL_CERT_FILE", ?_⟩
  all_goals
    cases hd
    cases hd'
    decide

end Template

end WorkflowAugment

import WorkflowAugment.Proofs.Additions
import WorkflowAugment.Proofs.Changes

/-!
# Mounts and volumes

The mounts of a container are in order if each names exactly one volume of the template (`Template.checkMounts_eq_ok_iff`);
otherwise the error is about the first that does not (`Template.checkMounts_eq_error_iff`). A bundle brings one mount and one
volume of the same name, so whether the mounts are in order behind it depends on what had the name before
(`Workflow.checkMounts_bundled`).
-/

namespace WorkflowAugment

namespace Template

/-- The mounts of the container, if there is one. -/
def mounts (t : Template) : List VolumeMount := t.container.elim [] (·.volumeMounts)

/-- The volumes of a name. -/
def volumesNamed (t : Template) (name : String) : List Volume := t.volumes.filter (·.name = name)

variable {t t' : Template} {m : VolumeMount} {e : ManifestError}

/-- The mounts of a template are those of its container. -/
theorem mounts_of_some {c : Container} (h : t.container = some c) : t.mounts = c.volumeMounts := by
  rw [mounts, h]
  rfl

/-- A mount names as many volumes as bear its name. -/
theorem matchCount_eq (t : Template) (m : VolumeMount) : t.matchCount m = (t.volumesNamed m.name).length := rfl

/-! ## What the check finds -/

/-- Nothing is wrong with a mount that names exactly one volume. -/
theorem mountError?_eq_none_iff : t.mountError? m = none ↔ (t.volumesNamed m.name).length = 1 := by
  rw [← matchCount_eq, mountError?]
  split
  · rename_i hcount
    simp [hcount]
  · rename_i hcount
    simp [hcount]
  · rename_i hne
    simp only [reduceCtorEq, false_iff]
    exact hne

/-- A mount dangles if it names no volume, and is ambiguous if it names several. -/
theorem mountError?_eq_some_iff : t.mountError? m = some e ↔
    (t.volumesNamed m.name = [] ∧ e = .danglingMount t.name m.name) ∨
      (2 ≤ (t.volumesNamed m.name).length ∧
        e = .ambiguousMount t.name m.name (t.volumesNamed m.name).length) := by
  rw [← List.length_eq_zero_iff, ← matchCount_eq, mountError?]
  split
  · rename_i hcount
    simp [hcount, eq_comm]
  · rename_i hcount
    simp [hcount]
  · rename_i hnone hone
    have hzero : t.matchCount m ≠ 0 := hnone
    have htwo : 2 ≤ t.matchCount m := by
      have : t.matchCount m ≠ 1 := hone
      omega
    simp [hzero, htwo, eq_comm]

/-- The mounts are in order if each names exactly one volume. -/
theorem checkMounts_eq_ok_iff : t.checkMounts = .ok () ↔ ∀ m ∈ t.mounts, (t.volumesNamed m.name).length = 1 := by
  have hnone : t.checkMounts = .ok () ↔ t.mounts.findSome? t.mountError? = none := by
    rw [checkMounts, ← mounts]
    cases t.mounts.findSome? t.mountError? <;> simp
  rw [hnone, List.findSome?_eq_none_iff]
  exact forall₂_congr fun m _ => mountError?_eq_none_iff

/-- Otherwise the error is that of the first mount which does not. -/
theorem checkMounts_eq_error_iff : t.checkMounts = .error e ↔
    ∃ before m after, t.mounts = before ++ m :: after ∧ (∀ m' ∈ before, (t.volumesNamed m'.name).length = 1) ∧
      t.mountError? m = some e := by
  have hsome : t.checkMounts = .error e ↔ t.mounts.findSome? t.mountError? = some e := by
    rw [checkMounts, ← mounts]
    cases t.mounts.findSome? t.mountError? <;> simp
  rw [hsome, List.findSome?_eq_some_iff]
  constructor
  · rintro ⟨before, m, after, hmounts, herror, hbefore⟩
    exact ⟨before, m, after, hmounts, fun m' hm' => mountError?_eq_none_iff.mp (hbefore m' hm'), herror⟩
  · rintro ⟨before, m, after, hmounts, hbefore, herror⟩
    exact ⟨before, m, after, hmounts, herror, fun m' hm' => mountError?_eq_none_iff.mpr (hbefore m' hm')⟩

/-- What the check finds depends on the name, the mounts and the volumes only. -/
theorem checkMounts_congr (hname : t'.name = t.name) (hcontainer : t'.container = t.container)
    (hvolumes : t'.volumes = t.volumes) : t'.checkMounts = t.checkMounts := by
  have herror : t'.mountError? = t.mountError? := by
    funext m
    rw [mountError?, mountError?, matchCount, matchCount, hname, hvolumes]
  rw [checkMounts, checkMounts, hcontainer, herror]

end Template

/-! ## Behind a bundle -/

/-- There is one mount and one volume, both with the name that a bundle gives them. -/
structure Additions.Bundled (a : Additions) : Prop where
  volumeMounts : a.volumeMounts.map (·.name) = [bundleVolume]
  volumes : a.volumes.map (·.name) = [bundleVolume]

/-- A bundle with a secret appends a volume and a mount that names it. -/
theorem CaBundle.bundled_additions {b : CaBundle} (hsecret : b.secretName ≠ "") : b.additions.Bundled := by
  rw [additions, if_pos (isConfigured_iff.mpr hsecret)]
  exact ⟨rfl, rfl⟩

/-- Settings with a secret append a volume and a mount that names it. -/
theorem AugmentSettings.bundled_additions {s : AugmentSettings} (hsecret : s.bundle.secretName ≠ "") :
    s.additions.Bundled := by
  have hset := CaBundle.isConfigured_iff.mpr hsecret
  refine ⟨?_, ?_⟩
  · rw [s.volumeMounts_additions, if_pos hset]
    rfl
  · rw [s.volumes_additions, if_pos hset]
    rfl

namespace Template

variable {t : Template} {a : Additions}

/-- What is appended leaves the name of a template. -/
theorem name_add (t : Template) (a : Additions) : (t.add a).name = t.name := by
  rw [add]
  split <;> rfl

/-- What is appended to a container stands behind its mounts. -/
theorem mounts_add (hc : t.container.isSome) (a : Additions) : (t.add a).mounts = t.mounts ++ a.volumeMounts := by
  obtain ⟨c, hc⟩ := Option.isSome_iff_exists.mp hc
  rw [add_of_some hc, mounts_of_some hc]
  rfl

/-- Of the name of the bundle there is one volume more, of any other name as many as before. -/
theorem length_volumesNamed_add (ha : a.Bundled) (hc : t.container.isSome) (name : String) :
    ((t.add a).volumesNamed name).length =
      (t.volumesNamed name).length + if name = bundleVolume then 1 else 0 := by
  obtain ⟨c, hc⟩ := Option.isSome_iff_exists.mp hc
  obtain ⟨v, hv, hname⟩ := List.map_eq_singleton_iff.mp ha.volumes
  rw [add_of_some hc, volumesNamed, volumesNamed, hv, List.filter_append, List.length_append, List.filter_singleton,
    hname]
  by_cases h : name = bundleVolume
  · simp [h]
  · simp [h, Ne.symm h]

/-- The mount of the bundle is the last one, behind those that were there. -/
theorem mounts_add_of_bundled (ha : a.Bundled) (hc : t.container.isSome) :
    ∃ m, m.name = bundleVolume ∧ (t.add a).mounts = t.mounts ++ [m] := by
  obtain ⟨m, hm, hname⟩ := List.map_eq_singleton_iff.mp ha.volumeMounts
  exact ⟨m, hname, by rw [mounts_add hc, hm]⟩

/-- Behind a bundle the mounts are in order if nothing but mounts had its name before, and all other mounts were. -/
theorem checkMounts_add_eq_ok_iff (ha : a.Bundled) (hc : t.container.isSome) :
    (t.add a).checkMounts = .ok () ↔
      (t.volumesNamed bundleVolume).length = 0 ∧
        ∀ m ∈ t.mounts, m.name ≠ bundleVolume → (t.volumesNamed m.name).length = 1 := by
  obtain ⟨own, hown, hmounts⟩ := mounts_add_of_bundled ha hc
  rw [checkMounts_eq_ok_iff, hmounts, List.forall_mem_append, List.forall_mem_singleton, hown]
  simp only [length_volumesNamed_add ha hc, if_true]
  constructor
  · rintro ⟨hbefore, hlast⟩
    refine ⟨by omega, fun m hm hne => ?_⟩
    have := hbefore m hm
    rwa [if_neg hne] at this
  · rintro ⟨hnone, hbefore⟩
    refine ⟨fun m hm => ?_, by omega⟩
    by_cases hname : m.name = bundleVolume
    · rw [hname, if_pos rfl, hnone]
    · rw [if_neg hname]
      exact hbefore m hm hname

/-- If a volume had the name of the bundle, and only the mounts of this name can be out of order, they are ambiguous. -/
theorem checkMounts_add_eq_error (ha : a.Bundled) (hc : t.container.isSome)
    (hsome : 1 ≤ (t.volumesNamed bundleVolume).length)
    (hothers : ∀ m ∈ t.mounts, m.name ≠ bundleVolume → (t.volumesNamed m.name).length = 1) :
    (t.add a).checkMounts =
      .error (.ambiguousMount t.name bundleVolume ((t.volumesNamed bundleVolume).length + 1)) := by
  obtain ⟨own, hown, hmounts⟩ := mounts_add_of_bundled ha hc
  cases hcheck : (t.add a).checkMounts with
  | ok =>
    have := ((checkMounts_add_eq_ok_iff ha hc).mp hcheck).1
    omega
  | error e =>
    obtain ⟨before, m, after, hsplit, -, herror⟩ := checkMounts_eq_error_iff.mp hcheck
    have hbad : ((t.add a).volumesNamed m.name).length ≠ 1 := by
      intro hone
      rw [mountError?_eq_none_iff.mpr hone] at herror
      cases herror
    -- The mount that is found has the name of the bundle, since any other is in order.
    have hname : m.name = bundleVolume := by
      by_contra hne
      have hm : m ∈ t.mounts ++ [own] := by rw [← hmounts, hsplit]; simp
      rcases List.mem_append.mp hm with hm | hm
      · apply hbad
        rw [length_volumesNamed_add ha hc, if_neg hne]
        exact hothers m hm hne
      · rw [List.mem_singleton.mp hm] at hne
        exact hne hown
    rw [mountError?_eq_some_iff, hname, ← List.length_eq_zero_iff, length_volumesNamed_add ha hc, if_pos rfl, name_add]
      at herror
    rcases herror with ⟨hzero, -⟩ | ⟨-, rfl⟩
    · omega
    · rfl

end Template

namespace Workflow

/-- When the mounts of a container are in order once a bundle is added to it: no volume had the name of the bundle, and every
mount of another name was in order; mounts of its name that dangled get their volume. If volumes had the name and nothing else
is wrong, the name is ambiguous, with one volume more than before. Whatever is wrong, the error is about the first mount that
does not name exactly one volume. So an augmentation with a bundle leaves the mounts of every container that is reached in
order, if they were and no volume had the name. -/
theorem checkMounts_bundled :
    (∀ (b : CaBundle) (t : Template) (c : Container), b.secretName ≠ "" → t.container = some c →
      ((b.addTo t).checkMounts = .ok () ↔
        (t.volumesNamed "ca-secret").length = 0 ∧
          ∀ m ∈ c.volumeMounts, m.name ≠ "ca-secret" → (t.volumesNamed m.name).length = 1) ∧
      (1 ≤ (t.volumesNamed "ca-secret").length →
        (∀ m ∈ c.volumeMounts, m.name ≠ "ca-secret" → (t.volumesNamed m.name).length = 1) →
        (b.addTo t).checkMounts =
          .error (.ambiguousMount t.name "ca-secret" ((t.volumesNamed "ca-secret").length + 1))) ∧
      ∀ e, (b.addTo t).checkMounts = .error e →
        ∃ c' before m after, (b.addTo t).container = some c' ∧ c'.volumeMounts = before ++ m :: after ∧
          (∀ m' ∈ before, ((b.addTo t).volumesNamed m'.name).length = 1) ∧
          (((b.addTo t).volumesNamed m.name = [] ∧ e = .danglingMount t.name m.name) ∨
            2 ≤ ((b.addTo t).volumesNamed m.name).length ∧
              e = .ambiguousMount t.name m.name ((b.addTo t).volumesNamed m.name).length)) ∧
    ∀ (w : Workflow) (s : AugmentSettings) (ids : IdSource) (root : String) (r : Report),
      (w.augment s ids root).result = .ok r → s.bundle.secretName ≠ "" →
      ∀ p t, w.Reaches p → w.templates[p]? = some t → t.container.isSome →
        t.checkMounts = .ok () → (t.volumesNamed "ca-secret").length = 0 →
        ∃ t', (w.augment s ids root).workflow.templates[p]? = some t' ∧ t'.checkMounts = .ok () := by
  refine ⟨?_, ?_⟩
  · intro b t c hsecret hc
    have hbundled := CaBundle.bundled_additions hsecret
    have hsome : t.container.isSome := by rw [hc]; rfl
    rw [CaBundle.addTo_eq_add, ← Template.mounts_of_some hc]
    refine ⟨Template.checkMounts_add_eq_ok_iff hbundled hsome, Template.checkMounts_add_eq_error hbundled hsome, ?_⟩
    intro e he
    obtain ⟨before, m, after, hmounts, hbefore, herror⟩ := Template.checkMounts_eq_error_iff.mp he
    rw [Template.mountError?_eq_some_iff, Template.name_add] at herror
    have hafter := Template.add_of_some hc b.additions
    refine ⟨c.add b.additions, before, m, after, by rw [hafter], ?_, hbefore, herror⟩
    rw [← hmounts, hafter]
    rfl
  · intro w s ids root r h hsecret p t hreach ht hc hcheck hnone
    obtain ⟨index, start, u, plan, hI, hu, hname, hplan, hafter⟩ := augment_ok h
    obtain ⟨hgrown, hcovers⟩ := planFrom_grown hI _ hplan
    have haugmented := augmented_followAt (s := s) hgrown hcovers ht
    obtain ⟨hcontainer, hvolumes⟩ := haugmented.container ((hI.reaches_iff hu hname).mp hreach) hc
    refine ⟨followAt s plan p t, by rw [hafter, getElem?_follow, ht]; rfl, ?_⟩
    have hname' : (followAt s plan p t).name = (s.augmentTemplate t).name := by
      rw [haugmented.name, AugmentSettings.name_augmentTemplate]
    rw [Template.checkMounts_congr hname' hcontainer hvolumes, AugmentSettings.augmentTemplate_eq_add,
      Template.checkMounts_add_eq_ok_iff (AugmentSettings.bundled_additions hsecret) hc]
    exact ⟨hnone, fun m hm _ => Template.checkMounts_eq_ok_iff.mp hcheck m hm⟩

/-- A template with a mount for a bundle and one for data, and some volumes. -/
def awaiting (volumes : List Volume) : Template :=
  { Template.ofContainer "t" { Container.ofImage "i" with
      volumeMounts := [⟨"ca-secret", "/old", .empty⟩, ⟨"data", "/data", .empty⟩] } with
    volumes := volumes }

/-- A mount that dangles gets its volume; one that has its volume gets a second one. -/
theorem checkMounts_bundled_awaiting :
    (awaiting [.ofSecret "data" "d"]).checkMounts = .error (.danglingMount "t" "ca-secret") ∧
    (CaBundle.addTo ⟨"/certs/ca.pem", "ca"⟩ (awaiting [.ofSecret "data" "d"])).checkMounts = .ok () ∧
    (awaiting [.ofSecret "data" "d", .ofSecret "ca-secret" "old"]).checkMounts = .ok () ∧
    (CaBundle.addTo ⟨"/certs/ca.pem", "ca"⟩ (awaiting [.ofSecret "data" "d", .ofSecret "ca-secret" "old"])).checkMounts =
      .error (.ambiguousMount "t" "ca-secret" 2) ∧
    ∃ t', (sharing.augment ⟨.enabled, ⟨"/certs/ca.pem", "ca"⟩, none⟩ .path "root").workflow.templates[3]? = some t' ∧
      t'.checkMounts = .ok () := by
  obtain ⟨hbundle, haugment⟩ := checkMounts_bundled
  have hmounts : ∀ m ∈ [(⟨"ca-secret", "/old", .empty⟩ : VolumeMount), ⟨"data", "/data", .empty⟩],
      m.name ≠ "ca-secret" → ∀ volumes, (volumes.filter (·.name = "data")).length = 1 →
        ((awaiting volumes).volumesNamed m.name).length = 1 := by
    simp [Template.volumesNamed, awaiting]
  have hreach : sharing.Reaches 3 :=
    ⟨0, _, rfl, rfl, .single ⟨_, _, rfl, rfl, _, List.mem_of_getElem? (i := 2) rfl, rfl⟩⟩
  refine ⟨rfl, ?_, rfl, ?_, ?_⟩
  · refine (hbundle _ (awaiting [.ofSecret "data" "d"]) _ (by decide) rfl).1.mpr ⟨by decide, ?_⟩
    exact fun m hm hne => hmounts m hm hne _ (by decide)
  · refine (hbundle _ (awaiting [.ofSecret "data" "d", .ofSecret "ca-secret" "old"]) _ (by decide) rfl).2.1 (by decide) ?_
    exact fun m hm hne => hmounts m hm hne _ (by decide)
  · exact haugment sharing ⟨.enabled, ⟨"/certs/ca.pem", "ca"⟩, none⟩ .path "root" ⟨1, 3, 0⟩ rfl (by decide) 3
      (.ofContainer "leaf" default) hreach rfl rfl rfl (by decide)

end Workflow

end WorkflowAugment

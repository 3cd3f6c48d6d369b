import WorkflowAugment.Proofs.Json.Denoting
import WorkflowAugment.Settings.Augment

/-!
# Documents with the settings of an augmentation

What a document says about an augmentation is said without the reader: which policy, which bundle and which exit template its
members denote, with the defaults in place of what is left out (`AugmentSettings.DenotedBy`). A text is read as settings exactly
if it denotes them, so all that counts is what is given for the fields, and neither how it is given nor what stands beside it
(`AugmentSettings.read_document`).
-/

namespace WorkflowAugment

/-! ## The policy -/

namespace TlsPolicy

/-- A policy is denoted by its name, and by an object that has the name as its only member and null as the value. -/
def DenotedBy (p : TlsPolicy) (t : Tree) : Prop := t.Spells (.string p.name) ∨ t.Spells (.object [(p.name, .null)])

/-- The two names are those of the policies. -/
theorem mem_names_iff {s : String} : s ∈ ["disabled", "enabled"] ↔ ∃ p : TlsPolicy, s = p.name := by
  constructor
  · intro h
    rcases List.mem_pair.mp h with rfl | rfl
    · exact ⟨.disabled, rfl⟩
    · exact ⟨.enabled, rfl⟩
  · rintro ⟨p, rfl⟩
    cases p <;> simp [name]

/-- A policy is told by whether its name is `enabled`. -/
theorem ofBool_name (p : TlsPolicy) : ofBool (p.name = "enabled") = p := by
  cases p <;> rfl

/-- A tree that denotes a policy gives it. -/
theorem value_of_denotedBy {p : TlsPolicy} {t : Tree} (h : p.DenotedBy t) : codec.value t = p := by
  rw [DenotedBy, Tree.spells_string_iff, Tree.spells_nullMember_iff] at h
  obtain ⟨ps, rfl, htext⟩ | ⟨ps, rfl, htext⟩ := h
  all_goals
    simp only [codec, Tree.spelled_of_text htext]
    exact ofBool_name p

/-- The codec reads a policy off its name, written in any way. -/
theorem denotes : codec.Denotes DenotedBy 1 where
  reads {room t p} hroom := by
    have hfits : codec.shape.problem? room t = none ↔ ∃ p : TlsPolicy, p.DenotedBy t := by
      have hne : room ≠ 0 := Nat.ne_of_gt hroom
      rw [codec, Shape.variant_eq_none_iff]
      simp only [mem_names_iff, DenotedBy, ne_eq, hne, not_false_eq_true, true_and]
      constructor
      · rintro ⟨_, ⟨p, rfl⟩, h⟩
        exact ⟨p, h⟩
      · rintro ⟨p, h⟩
        exact ⟨p.name, ⟨p, rfl⟩, h⟩
    rw [hfits]
    constructor
    · rintro ⟨⟨q, hq⟩, rfl⟩
      rwa [value_of_denotedBy hq]
    · intro h
      exact ⟨⟨p, h⟩, value_of_denotedBy h⟩

/-- What is written for a policy gives it back. -/
theorem restores (p : TlsPolicy) : codec.Restores p where
  integral := trivial
  present := nofun
  accepted _ _ := Shape.variant_eq_none_iff.mpr ⟨p.name, mem_names_iff.mpr ⟨p, rfl⟩, .inl (Tree.spells_toTree_string p.name)⟩
  value := value_of_denotedBy (.inl (Tree.spells_toTree_string p.name))

end TlsPolicy

/-! ## The bundle -/

namespace CaBundle

/-- The names of the fields in declared order. -/
def fieldNames : List String := ["path", "secretName"]

/-- The bundle is denoted by the values that are given for its fields. -/
structure Described (b : CaBundle) (given : List (String × Tree)) : Prop where
  path : OrDefault (fun s t => t.Spells (.string s)) "" b.path (given.lookup "path")
  secretName : OrDefault (fun s t => t.Spells (.string s)) "" b.secretName (given.lookup "secretName")

/-- The bundle is denoted by what the document gives for its fields. -/
def DenotedBy (b : CaBundle) (t : Tree) : Prop := ∃ given, t.Gives fieldNames given ∧ b.Described given

/-- The documents are the same, or give the same for the fields of a bundle, each by name or by position. -/
inductive Respelled : Tree → Tree → Prop
  | refl (t : Tree) : Respelled t t
  | gives {t t' : Tree} {given : List (String × Tree)} (h : t.Gives fieldNames given) (h' : t'.Gives fieldNames given) :
    Respelled t t'

/-- The codec reads a bundle off an object or an array with its two texts. -/
theorem denotes : codec.Denotes DenotedBy 1 := by
  refine .settings (.field (by decide) (.default .string _ _) <| .field (by decide) (.default .string _ _) .done)
    (fun _ => rfl) (fun _ => rfl) fun b given => ?_
  exact ⟨fun ⟨hpath, hsecret, _⟩ => ⟨hpath, hsecret⟩, fun h => ⟨h.path, h.secretName, trivial⟩⟩

/-- What is written for a bundle gives it back. -/
theorem restores (b : CaBundle) : codec.Restores b :=
  .settings (.field (by decide) (.default (.string _) nofun) <| .field (by decide) (.default (.string _) nofun) .done) rfl

variable {b : CaBundle} {t t' : Tree} {given : List (String × Tree)}

/-- Given its members, a tree denotes a bundle if they describe it. -/
theorem denotedBy_iff (h : t.Gives fieldNames given) : b.DenotedBy t ↔ b.Described given := by
  refine h.exists_iff fun hms hdescribed => ⟨?_, ?_⟩
  · rw [← hms "path" (by decide)]
    exact hdescribed.path
  · rw [← hms "secretName" (by decide)]
    exact hdescribed.secretName

/-- Two spellings with the same members denote the same bundles. -/
theorem Respelled.denotedBy_iff (h : Respelled t t') : b.DenotedBy t ↔ b.DenotedBy t' := by
  cases h with
  | refl => rfl
  | gives h h' => rw [CaBundle.denotedBy_iff h, CaBundle.denotedBy_iff h']

end CaBundle

/-! ## The settings -/

namespace AugmentSettings

/-- The names of the fields in declared order. -/
def fieldNames : List String := ["tls", "caBundle", "exitTemplate"]

/-- The settings are denoted by the values that are given for their fields. -/
structure Described (s : AugmentSettings) (given : List (String × Tree)) : Prop where
  tls : OrDefault TlsPolicy.DenotedBy .disabled s.tls (given.lookup "tls")
  bundle : OrDefault CaBundle.DenotedBy ⟨"", ""⟩ s.bundle (given.lookup "caBundle")
  exit : OrDefault (OrNull fun s t => t.Spells (.string s)) none s.exit (given.lookup "exitTemplate")

/-- The settings are denoted by what the document gives for their fields. -/
def DenotedBy (s : AugmentSettings) (t : Tree) : Prop := ∃ given, t.Gives fieldNames given ∧ s.Described given

/-- The documents give the same for the fields of the settings, each by name or by position, but for the spelling of the
bundle. -/
structure Respelled (t t' : Tree) (given given' : List (String × Tree)) : Prop where
  gives : t.Gives fieldNames given
  gives' : t'.Gives fieldNames given'
  tls : given.lookup "tls" = given'.lookup "tls"
  bundle : Option.Rel CaBundle.Respelled (given.lookup "caBundle") (given'.lookup "caBundle")
  exit : given.lookup "exitTemplate" = given'.lookup "exitTemplate"

/-- The codec reads settings off an object or an array, one level above those of a bundle. -/
theorem denotes : codec.Denotes DenotedBy 2 := by
  have hnull : ∀ s, ¬Tree.null.Spells (.string s) := nofun
  refine .settings (.field (by decide) (.default TlsPolicy.denotes _ _) <|
    .field (by decide) (.default CaBundle.denotes _ _) <| .field (by decide) (.optional .string hnull) .done)
    (fun _ => rfl) (fun _ => rfl) fun s given => ?_
  exact ⟨fun ⟨htls, hbundle, hexit, _⟩ => ⟨htls, hbundle, hexit⟩, fun h => ⟨h.tls, h.bundle, h.exit, trivial⟩⟩

/-- What is written for settings gives them back. -/
theorem restores (s : AugmentSettings) : codec.Restores s :=
  .settings (.field (by decide) (.default (TlsPolicy.restores _) nofun) <|
    .field (by decide) (.default (CaBundle.restores _) nofun) <|
    .field (by decide) (.optional fun _ _ => .string _) .done) rfl

/-- Settings are written with no more than two levels of nesting. -/
theorem within (s : AugmentSettings) : codec.Within 2 s := by
  have htls : TlsPolicy.codec.Within 1 s.tls := Nat.zero_le 1
  have hbundle : CaBundle.codec.Within 1 s.bundle := by simp [CaBundle.codec]
  simp [codec, htls, hbundle]

variable {s : AugmentSettings} {t t' : Tree} {given given' : List (String × Tree)}

/-- Given its members, a tree denotes settings if they describe them. -/
theorem denotedBy_iff (h : t.Gives fieldNames given) : s.DenotedBy t ↔ s.Described given := by
  refine h.exists_iff fun hms hdescribed => ⟨?_, ?_, ?_⟩
  · rw [← hms "tls" (by decide)]
    exact hdescribed.tls
  · rw [← hms "caBundle" (by decide)]
    exact hdescribed.bundle
  · rw [← hms "exitTemplate" (by decide)]
    exact hdescribed.exit

/-- Two spellings with the same members denote the same settings. -/
theorem Respelled.denotedBy_iff (h : Respelled t t' given given') : s.DenotedBy t ↔ s.DenotedBy t' := by
  have hbundle : ∀ fallback b, OrDefault CaBundle.DenotedBy fallback b (given.lookup "caBundle") ↔
      OrDefault CaBundle.DenotedBy fallback b (given'.lookup "caBundle") :=
    fun _ _ => orDefault_congr h.bundle fun _ _ => CaBundle.Respelled.denotedBy_iff
  rw [AugmentSettings.denotedBy_iff h.gives, AugmentSettings.denotedBy_iff h.gives']
  constructor
  · rintro ⟨htls, hb, hexit⟩
    exact ⟨h.tls ▸ htls, (hbundle _ _).mp hb, h.exit ▸ hexit⟩
  · rintro ⟨htls, hb, hexit⟩
    exact ⟨h.tls ▸ htls, (hbundle _ _).mpr hb, h.exit ▸ hexit⟩

/-- A document with the settings of an augmentation. Any settings are read again from what is written for them, in both forms. A
text is read as settings just where what it gives for the fields denotes them, with the defaults for what is left out and
whatever stands beside under other names. So documents that give the same for the fields are read alike, each by name in any
order or by position, and with the bundle by name or by position in each. -/
theorem read_document :
    (∀ s isPretty, codec.read (codec.text isPretty s) = .ok s) ∧
    (∀ text s, codec.read text = .ok s ↔ ∃ t, t.ScannedFrom text ∧ s.DenotedBy t) ∧
    ∀ t t' given given' text text', Respelled t t' given given' → t.ScannedFrom text → t'.ScannedFrom text' →
      ∀ s, codec.read text = .ok s ↔ codec.read text' = .ok s := by
  have hroom : 2 ≤ maxDepth := by decide
  refine ⟨fun s => ?_, fun text s => denotes.read_eq_ok_iff hroom, fun t t' given given' text text' h ht ht' s => ?_⟩
  · exact (restores s).read_written ((within s).mono hroom)
  · rw [denotes.read_scanned_iff hroom ht, denotes.read_scanned_iff hroom ht', h.denotedBy_iff]

/-! ### An example -/

/-- Settings by position, with the bundle by position, and the last fields of both left out. -/
def positional : Json := .array [.string "enabled", .array [.string "/ca"]]

/-- The same settings by name, with the bundle by name, and members beside them that have other names. -/
def named : Json :=
  .object
    [("x", .array [.null]), ("caBundle", .object [("path", .string "/ca"), ("y", .object [])]), ("tls", .string "enabled")]

/-- The document by position and the one by name spell the same settings. -/
theorem respelled_positional_named : Respelled positional.toTree named.toTree
    [("tls", (Json.string "enabled").toTree), ("caBundle", (Json.array [.string "/ca"]).toTree)]
    [("tls", (Json.string "enabled").toTree),
      ("caBundle", (Json.object [("path", .string "/ca"), ("y", .object [])]).toTree)] where
  gives := Json.gives_array (by decide)
  gives' := Json.gives_object (.swap _ _ _) (by simp)
  tls := rfl
  bundle := .some (.gives (Json.gives_array (by decide)) (Json.gives_object (.refl _) (by simp [CaBundle.fieldNames])))
  exit := rfl

/-- Settings without an exit template are read from a document in either form. -/
theorem read_positional_named : codec.read (positional.render false) = .ok ⟨.enabled, ⟨"/ca", ""⟩, none⟩ ∧
    codec.read (named.render true) = .ok ⟨.enabled, ⟨"/ca", ""⟩, none⟩ := by
  obtain ⟨-, hdenoted, halike⟩ := read_document
  have hscan := positional.scannedFrom_render false
  have hbundle : CaBundle.DenotedBy ⟨"/ca", ""⟩ (Json.array [.string "/ca"]).toTree :=
    ⟨_, Json.gives_array (by decide), .present (Tree.spells_toTree_string "/ca"), .absent⟩
  have hread : codec.read (positional.render false) = .ok ⟨.enabled, ⟨"/ca", ""⟩, none⟩ :=
    (hdenoted _ _).mpr ⟨_, hscan, _, respelled_positional_named.gives,
      .present (.inl (Tree.spells_toTree_string "enabled")), .present hbundle, .absent⟩
  exact ⟨hread, (halike _ _ _ _ _ _ respelled_positional_named hscan (named.scannedFrom_render true) _).mp hread⟩

end AugmentSettings

end WorkflowAugment

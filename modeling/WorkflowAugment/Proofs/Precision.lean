import Mathlib.Algebra.Field.Rat
import Mathlib.Tactic.NormNum
import WorkflowAugment.Proofs.Declaration
import WorkflowAugment.Proofs.Json.Keeping
import WorkflowAugment.Proofs.Rewriting

/-!
# Numbers that keep their value

A document that is read and written again has each of its numbers at the same place in both forms, written for what its literal
stands for (`Kind.numeral_of_read`). An integer that fits a word of 64 bits, signed or not, keeps its value. One that does not
is a double from then on, and digits of it can be lost (`Workflow.numeral_of_read_beyond`).
-/

namespace WorkflowAugment

/-! ## What a literal denotes -/

namespace Numeral

/-- The number that a literal denotes, in exact arithmetic. -/
def value (n : Numeral) : ℚ :=
  (if n.negative then -1 else 1) * Tree.digitsValue (n.whole ++ n.fraction) *
    10 ^ (n.exponent.getD 0 - (n.fraction.length : Int))

/-- The integer that a literal of a sign and digits denotes. -/
def integer? (n : Numeral) : Option Int :=
  if n.fraction = [] ∧ n.exponent = none then
    some (if n.negative then -(Tree.digitsValue n.whole : Int) else Tree.digitsValue n.whole)
  else none

variable {n : Numeral} {i : Int}

/-- A literal is an integer if it has neither point nor exponent, and then it is what its digits come to under its sign.
-/
theorem integer?_eq_some_iff : n.integer? = some i ↔ n.fraction = [] ∧ n.exponent = none ∧
    (if n.negative then -(Tree.digitsValue n.whole : Int) else Tree.digitsValue n.whole) = i := by
  rw [integer?]
  split
  · next h => simp [h.1, h.2]
  · next h =>
    constructor
    · intro hnone
      cases hnone
    · rintro ⟨hfraction, hexponent, -⟩
      exact absurd ⟨hfraction, hexponent⟩ h

/-- The integer of a literal is the number that it denotes. -/
theorem value_of_integer? (h : n.integer? = some i) : n.value = i := by
  obtain ⟨hfraction, hexponent, rfl⟩ := integer?_eq_some_iff.mp h
  rw [value, hfraction, hexponent, List.append_nil]
  cases n.negative <;> simp

/-- The literal that an integer is written as denotes the integer. -/
theorem integer?_ofInt (i : Int) : (ofInt i).integer? = some i := by
  refine integer?_eq_some_iff.mpr ⟨rfl, rfl, ?_⟩
  have hvalue : Tree.digitsValue (digitsOf i.natAbs) = i.natAbs := foldl_digitsOf i.natAbs
  simp only [ofInt, hvalue, decide_eq_true_eq]
  split <;> omega

/-- An integer literal within a word stands for its integer; only minus zero stands for a double. -/
theorem number?_of_fitsWord (h : n.integer? = some i) (hfits : FitsWord i) :
    n.number? = some (.integer i hfits) ∨ i = 0 ∧ n.number? = some (.double (.zero true)) := by
  obtain ⟨hfraction, hexponent, hi⟩ := integer?_eq_some_iff.mp h
  have hle : Tree.digitsValue n.whole ≤ maxSignificand := by
    unfold FitsWord at hfits
    unfold maxSignificand
    split at hi <;> omega
  have hgather : gatherWhole 0 n.whole = (Tree.digitsValue n.whole, 0) := gatherWhole_of_le n.whole 0 hle
  have hint : Number.ofInt? i = some (.integer i hfits) := by rw [Number.ofInt?, dif_pos hfits]
  rw [number?, hgather]
  simp only [hfraction, hexponent, and_self, if_true]
  split at hi
  · next hnegative =>
    rw [if_pos hnegative, hi, hint]
    split
    · next hzero => exact .inr ⟨by omega, rfl⟩
    · exact .inl rfl
  · next hpositive =>
    rw [if_neg hpositive, hi, hint]
    exact .inl rfl

/-- Digits that are gathered to the last one are gathered to their value. -/
theorem gatherWhole_fst_of_snd_eq_zero (ds : List Nat) :
    ∀ v, (gatherWhole v ds).2 = 0 → (gatherWhole v ds).1 = ds.foldl (fun v d => v * 10 + d) v := by
  induction ds with
  | nil => intro v _; rfl
  | cons d ds ih =>
    intro v h
    rw [gatherWhole] at h ⊢
    split at h
    · next hstep =>
      rw [if_pos hstep]
      exact ih _ h
    · cases h

/-- An integer literal beyond the words stands for a double. -/
theorem number?_of_not_fitsWord (h : n.integer? = some i) (hfits : ¬FitsWord i) {v : Number} (hv : n.number? = some v) :
    ∃ x, v = .double x := by
  have hdouble : ∀ {o : Option Binary64}, o.map Number.double = some v → ∃ x, v = .double x := by
    intro o ho
    obtain ⟨x, -, rfl⟩ := Option.map_eq_some_iff.mp ho
    exact ⟨x, rfl⟩
  have hint : Number.ofInt? i = some v → ∃ x, v = .double x := by
    intro hi
    rw [Number.ofInt?, dif_neg hfits] at hi
    exact hdouble hi
  obtain ⟨hfraction, hexponent, hi⟩ := integer?_eq_some_iff.mp h
  have hgather := gatherWhole_fst_of_snd_eq_zero n.whole 0
  unfold number? at hv
  generalize gatherWhole 0 n.whole = gathered at hv hgather
  obtain ⟨w, dropped⟩ := gathered
  dsimp only at hv hgather
  split at hv
  · next hwhole =>
    obtain rfl : w = Tree.digitsValue n.whole := hgather hwhole.2.2
    split at hi
    · next hnegative =>
      rw [if_pos hnegative, hi] at hv
      split at hv
      · exact ⟨_, (Option.some.inj hv).symm⟩
      · exact hint hv
    · next hpositive =>
      rw [if_neg hpositive, hi] at hv
      exact hint hv
  · exact hdouble hv

/-- What an integer literal within a word is written as denotes the same integer. -/
theorem value_written {v : Number} {m : Numeral} (h : n.integer? = some i) (hfits : FitsWord i) (hv : n.number? = some v)
    (hm : (Json.number v).toTree = .number m) : m.value = i := by
  rcases number?_of_fitsWord h hfits with hinteger | ⟨rfl, hzero⟩
  · rw [hv] at hinteger
    cases hinteger
    rw [Json.toTree_integer] at hm
    cases hm
    exact value_of_integer? (integer?_ofInt i)
  · rw [hv] at hzero
    cases hzero
    have hwritten : (Json.number (.double (.zero true))).toTree = .number ⟨true, [0], [0], none⟩ := by
      rw [Json.toTree]
      rfl
    rw [hwritten] at hm
    cases hm
    simp [value, Tree.digitsValue]

end Numeral

/-! ## Each type keeps numbers -/

/-- A list that may be left out keeps the numbers of its elements. -/
theorem Slot.KeepsNumbers.list {α : Type} {c : Codec α} (h : c.KeepsNumbers) : (Slot.list c).KeepsNumbers := by
  refine .default (.list h) fun xs hxs => ?_
  rw [List.isEmpty_iff.mp hxs]
  rfl

theorem FieldSelector.keepsNumbers : FieldSelector.codec.KeepsNumbers :=
  .record (.field (by decide) (.required .string) .done) fun _ _ => rfl

theorem EnvVarSource.keepsNumbers : EnvVarSource.codec.KeepsNumbers :=
  .record (.field (by decide) (.optional FieldSelector.keepsNumbers) .done) fun _ _ => rfl

/-- A variable keeps the numbers of what it takes its value from. -/
theorem EnvVar.keepsNumbers : EnvVar.codec.KeepsNumbers :=
  .record
    (.field (by decide) (.required .string) <| .field (by decide) (.optional .string) <|
      .field (by decide) (.optional EnvVarSource.keepsNumbers) .done)
    fun _ _ => rfl

theorem ConfigMapSource.keepsNumbers : ConfigMapSource.codec.KeepsNumbers :=
  .record (.field (by decide) (.required .string) <| .field (by decide) (.optional .bool) .done) fun _ _ => rfl

theorem EnvFromSource.keepsNumbers : EnvFromSource.codec.KeepsNumbers :=
  .record (.field (by decide) (.optional ConfigMapSource.keepsNumbers) .done) fun _ _ => rfl

theorem SecretSource.keepsNumbers : SecretSource.codec.KeepsNumbers :=
  .record (.field (by decide) (.required .string) .done) fun _ _ => rfl

/-- A volume keeps the numbers of its secret. -/
theorem Volume.keepsNumbers : Volume.codec.KeepsNumbers :=
  .record (.field (by decide) (.required .string) <| .field (by decide) (.optional SecretSource.keepsNumbers) .done)
    fun _ _ => rfl

theorem VolumeMount.keepsNumbers : VolumeMount.codec.KeepsNumbers :=
  .record (.field (by decide) (.required .string) <| .field (by decide) (.required .string) .done) fun _ _ => rfl

/-- A container keeps the numbers of its parts. -/
theorem Container.keepsNumbers : Container.codec.KeepsNumbers :=
  .record
    (.field (by decide) (.required .string) <| .field (by decide) (.list .string) <|
      .field (by decide) (.list .string) <| .field (by decide) (.list EnvVar.keepsNumbers) <|
      .field (by decide) (.list EnvFromSource.keepsNumbers) <| .field (by decide) (.list VolumeMount.keepsNumbers) .done)
    fun _ _ => rfl

theorem Parameter.keepsNumbers : Parameter.codec.KeepsNumbers :=
  .record (.field (by decide) (.required .string) <| .field (by decide) (.optional .string) .done) fun _ _ => rfl

theorem Arguments.keepsNumbers : Arguments.codec.KeepsNumbers :=
  .record (.field (by decide) (.list Parameter.keepsNumbers) .done) fun _ _ => rfl

theorem Slot.KeepsNumbers.arguments : Slot.arguments.KeepsNumbers :=
  .default Arguments.keepsNumbers fun a ha => a.isEmpty_eq_isVoid ▸ ha

theorem Hook.keepsNumbers : Hook.codec.KeepsNumbers :=
  .record (.field (by decide) (.required .string) <| .field (by decide) .arguments .done) fun _ _ => rfl

theorem Hooks.keepsNumbers : Hooks.codec.KeepsNumbers := .dictionary Hook.keepsNumbers

/-- A task keeps the numbers of its parts; its hooks are left out only where they are void, and have no numbers then. -/
theorem Task.keepsNumbers : Task.codec.KeepsNumbers :=
  .record
    (.field (by decide) (.required .string) <| .field (by decide) (.required .string) <|
      .field (by decide) (.optional .string) <| .field (by decide) .arguments <|
      .field (by decide) (.default Hooks.keepsNumbers fun h hh => h.isEmpty_eq_isVoid ▸ hh) .done)
    fun _ _ => rfl

theorem Dag.keepsNumbers : Dag.codec.KeepsNumbers :=
  .record (.field (by decide) (.default (.list Task.keepsNumbers) nofun) .done) fun _ _ => rfl

/-- A template keeps the numbers of its parts. -/
theorem Template.keepsNumbers : Template.codec.KeepsNumbers :=
  .record
    (.field (by decide) (.required .string) <| .field (by decide) (.optional Container.keepsNumbers) <|
      .field (by decide) (.list Volume.keepsNumbers) <| .field (by decide) (.optional Dag.keepsNumbers) .done)
    fun _ _ => rfl

/-- A workflow keeps the numbers of its templates. -/
theorem Workflow.keepsNumbers : Workflow.codec.KeepsNumbers :=
  .record
    (.field (by decide) (.required .string) <| .field (by decide) (.default (.list Template.keepsNumbers) nofun) .done)
    fun _ _ => rfl

namespace Kind

/-- Every type keeps numbers. -/
theorem keepsNumbers : ∀ k : Kind, k.codec.KeepsNumbers
  | workflow => Workflow.keepsNumbers
  | template => Template.keepsNumbers
  | container => Container.keepsNumbers
  | dag => Dag.keepsNumbers
  | task => Task.keepsNumbers
  | arguments => Arguments.keepsNumbers
  | parameter => Parameter.keepsNumbers
  | hook => Hook.keepsNumbers
  | hooks => Hooks.keepsNumbers
  | envVar => EnvVar.keepsNumbers
  | envVarSource => EnvVarSource.keepsNumbers
  | fieldSelector => FieldSelector.keepsNumbers
  | envFromSource => EnvFromSource.keepsNumbers
  | configMapSource => ConfigMapSource.keepsNumbers
  | volume => Volume.keepsNumbers
  | secretSource => SecretSource.keepsNumbers
  | volumeMount => VolumeMount.keepsNumbers

/-- Let a text be read as a value of any type, and let a number literal stand somewhere in it. It stands for a number, and what
that number is written as stands at the same place of the compact and of the pretty text of the value. If the literal is an
integer, of any length, that fits a word of 64 bits, then what is written denotes the same integer; if it fits none, it is kept
as a double. -/
theorem numeral_of_read (k : Kind) {text : String} {a : k.Value} (hread : k.codec.read text = .ok a) {p : Tree.Place}
    {n : Numeral} (hn : Tree.numeralAt? text p = some n) :
    ∃ v m, n.number? = some v ∧ (Tree.scanNumber v.render).1 = .number m ∧
      (∀ isPretty, Tree.numeralAt? (k.codec.text isPretty a) p = some m) ∧
      ∀ i, n.integer? = some i → (FitsWord i → m.value = i) ∧ (¬FitsWord i → ∃ x, v = .double x) := by
  obtain ⟨hfits, rfl⟩ := Codec.read_eq_ok hread
  rw [Tree.numeralAt?_eq_some_iff] at hn
  obtain ⟨v, hv, hwritten⟩ := k.keepsNumbers.kept _ maxDepth hfits p n hn
  obtain ⟨m, hm⟩ := Tree.exists_toTree_number v
  refine ⟨v, m, hv, ?_, fun isPretty => ?_, fun i hi => ⟨fun hword => ?_, fun hword => ?_⟩⟩
  · rwa [Json.toTree] at hm
  · rw [Tree.numeralAt?_eq_some_iff, Codec.text, Json.scan_render, ← hm]
    exact hwritten
  · exact n.value_written hi hword hv hm
  · exact n.number?_of_not_fitsWord hi hword hv

end Kind

namespace Workflow

/-- A document with integers at the ends of the words among its members. -/
def extreme : String :=
  "\x7b\"n\":1,\"templates\":[\x7b\"name\":\"a\",\"x\":[-0,18446744073709551615,-9223372036854775808]\x7d]," ++
    "\"entrypoint\":\"a\",\"n\":7\x7d"

/-- The place of an item of the list in the document. -/
def extremePlace (i : Nat) : Tree.Place := [.member "templates", .item 0, .member "x", .item i]

/-- The document is read, and what is written for it has the same integers, the last of two with one name among them. -/
theorem numeral_of_read_extreme : ∃ w, Workflow.codec.read extreme = .ok w ∧ ∀ isPretty,
    ∀ e ∈ [(extremePlace 0, (0 : Int)), (extremePlace 1, 18446744073709551615), (extremePlace 2, -9223372036854775808),
      ([.member "n"], 7)],
      ∃ m, Tree.numeralAt? (Workflow.codec.text isPretty w) e.1 = some m ∧ m.value = e.2 := by
  have hread : Workflow.codec.read extreme = .ok (Workflow.codec.value (Tree.scan extreme.toList).1) :=
    Codec.read_eq_ok_iff.mpr ⟨by decide +kernel, by decide +kernel, rfl⟩
  have hliterals : ∀ e ∈ [(extremePlace 0, (0 : Int)), (extremePlace 1, 18446744073709551615),
      (extremePlace 2, -9223372036854775808), ([.member "n"], 7)],
      (Tree.numeralAt? extreme e.1).bind Numeral.integer? = some e.2 ∧ FitsWord e.2 := by
    decide +kernel
  refine ⟨_, hread, fun isPretty e he => ?_⟩
  obtain ⟨hliteral, hfits⟩ := hliterals e he
  obtain ⟨n, hn, hi⟩ := Option.bind_eq_some_iff.mp hliteral
  obtain ⟨v, m, -, -, hwritten, hvalue⟩ := Kind.workflow.numeral_of_read hread hn
  exact ⟨m, hwritten isPretty, (hvalue _ hi).1 hfits⟩

/-- A document with an integer just beyond the words in a member without a name here. -/
def beyond : String := "\x7b\"entrypoint\":\"a\",\"templates\":[],\"n\":18446744073709551616\x7d"

/-- The document is read, and both texts that are written for it have another integer in the place of the one it has. -/
theorem numeral_of_read_beyond :
    "n" ∉ Kind.workflow.members.map (·.name) ∧
    (Tree.numeralAt? beyond [.member "n"]).bind Numeral.integer? = some 18446744073709551616 ∧
    ∃ w, Workflow.codec.read beyond = .ok w ∧ ∀ isPretty,
      ∃ m, Tree.numeralAt? (Workflow.codec.text isPretty w) [.member "n"] = some m ∧ m.value = 18446744073709552000 := by
  refine ⟨by decide, by decide +kernel, Workflow.codec.value (Tree.scan beyond.toList).1,
    Codec.read_eq_ok_iff.mpr ⟨by decide +kernel, by decide +kernel, rfl⟩, fun isPretty => ?_⟩
  refine ⟨⟨false, [1], [8, 4, 4, 6, 7, 4, 4, 0, 7, 3, 7, 0, 9, 5, 5, 2], some 19⟩, ?_, ?_⟩
  · cases isPretty <;> decide +kernel
  · norm_num [Numeral.value, Tree.digitsValue]

end Workflow

end WorkflowAugment
